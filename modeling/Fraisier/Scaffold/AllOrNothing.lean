import Fraisier.Scaffold.Apply

/-!
# An apply writes everything or nothing

`apply_scaffold` makes all its reads before its first write: `all_or_nothing` splits the calls of
any run in two, and says that the second part is there only if every unit of the policy was
accepted, and that what it writes is what was read and judged.
-/

namespace Fraisier.Scaffold

open Fraisier.Lib Interaction Str Fraisier.Unit

/-- The calls and answers of an apply. -/
abbrev Calls := History ApplyCall.Answer

/-- A call that changes nothing. -/
def ApplyCall.Reads : ApplyCall → Prop
  | .readTree _ => True
  | .readInstalled _ => True
  | .writeUnit _ _ => False
  | .systemctl _ => False

/-- `validate_unit` accepts the bytes. -/
def Accepts (policy : RootPolicy) (name : Str) (data : ByteArray) : Prop :=
  ∃ text, decodeUtf8 data = some text ∧ validateUnit name text policy = some []

/-- The render's bytes for a unit of the policy were read and accepted. -/
def Accepted (policy : RootPolicy) (h : Calls) (item : Sigma fun _ : Str => UnitGrant) : Prop :=
  checkScaffoldUnitName item.1 policy = none ∧
    ∃ data, ⟨.readTree item.2.source, .file data⟩ ∈ h ∧ Accepts policy item.1 data

/-- What is written to a unit was read from the source of its grant, and accepted. -/
def WritesAccepted (policy : RootPolicy) (h : Calls) (name : Str) (data : ByteArray) : Prop :=
  ∃ grant : UnitGrant, ⟨name, grant⟩ ∈ policy.units.entries ∧
    ⟨.readTree grant.source, .file data⟩ ∈ h ∧ Accepts policy name data

/-- The reads and the rest of an apply. -/
structure TwoPhases (policy : RootPolicy) (reads acts : Calls) : Prop where
  first : ∀ e ∈ reads, e.1.Reads
  second : ∀ e ∈ acts, ¬e.1.Reads
  /-- Nothing is done unless every unit was accepted. -/
  accepted : acts ≠ [] → ∀ item ∈ policy.units.entries, Accepted policy reads item
  /-- What is written was accepted. -/
  written : ∀ name data r, ⟨.writeUnit name data, r⟩ ∈ acts → WritesAccepted policy reads name data

/-- Nothing was refused, and nothing waits for an operator. -/
def ApplyOutcome.Clear (o : ApplyOutcome) : Prop := o.refused.entries = [] ∧ o.pending = []

/-- A refusal is not clear. -/
theorem not_clear_refuse (o : ApplyOutcome) (name : Str) (refusals : List Refusal) :
    ¬(o.refuse name refusals).Clear := fun h => by
  have hentries : (o.refused.insert name refusals).entries = [] := h.1
  rw [AList.entries_insert] at hentries
  exact List.cons_ne_nil _ _ hentries

/-- A wait is not clear. -/
theorem not_clear_wait (o : ApplyOutcome) (message : Message) : ¬(o.wait message).Clear := fun h =>
  absurd h.2 (List.append_ne_nil_of_right_ne_nil _ (List.cons_ne_nil _ _))

/-- An outcome that is ok is clear. -/
theorem ApplyOutcome.clear_of_ok {o : ApplyOutcome} (h : o.ok = true) : o.Clear := by
  simp only [ApplyOutcome.ok, Bool.and_eq_true, List.isEmpty_iff] at h
  exact h.1

/-- Judging leaves what was done as it is. -/
structure ApplyOutcome.Keeps (o o' : ApplyOutcome) : Prop where
  installed : o'.installed = o.installed
  failed : o'.failed = o.failed

/-! ## The reads -/

/-- What the reads have come to, with the units in `done` judged. -/
structure JudgedSoFar (policy : RootPolicy) (units : List (Sigma fun _ : Str => UnitGrant))
    (outcome : ApplyOutcome) (toWrite : ToWrite) (h : Calls) : Prop where
  reads : ∀ e ∈ h, e.1.Reads
  toWrite : ∀ item ∈ toWrite, ∃ grant : UnitGrant, ⟨item.1, grant⟩ ∈ units ∧
    ⟨.readTree grant.source, .file item.2⟩ ∈ h ∧ Accepts policy item.1 item.2
  clear : outcome.Clear → ∀ item ∈ units, Accepted policy h item
  keeps : ApplyOutcome.Keeps {} outcome

variable {policy : RootPolicy} {units : List (Sigma fun _ : Str => UnitGrant)}
  {outcome outcome' : ApplyOutcome} {toWrite : ToWrite} {h : Calls}

/-- What is kept twice is kept. -/
theorem ApplyOutcome.Keeps.trans {o o' o'' : ApplyOutcome} (h : o.Keeps o') (h' : o'.Keeps o'') :
    o.Keeps o'' :=
  ⟨h'.installed.trans h.installed, h'.failed.trans h.failed⟩

/-- More reads, and an outcome that is no clearer. -/
theorem JudgedSoFar.extend (hj : JudgedSoFar policy units outcome toWrite h) (es : Calls)
    (hes : ∀ e ∈ es, e.1.Reads) (hclear : outcome'.Clear → outcome.Clear)
    (hkeeps : outcome.Keeps outcome') : JudgedSoFar policy units outcome' toWrite (h ++ es) where
  reads e he := (List.mem_append.mp he).elim (hj.reads e) (hes e)
  toWrite item hitem := by
    obtain ⟨grant, hgrant, hread, haccepts⟩ := hj.toWrite item hitem
    exact ⟨grant, hgrant, List.mem_append_left _ hread, haccepts⟩
  clear hc item hitem := by
    obtain ⟨hname, data, hread, haccepts⟩ := hj.clear (hclear hc) item hitem
    exact ⟨hname, data, List.mem_append_left _ hread, haccepts⟩
  keeps := hj.keeps.trans hkeeps

/-- One more unit that was not accepted. -/
theorem JudgedSoFar.reject (hj : JudgedSoFar policy units outcome toWrite h)
    (item : Sigma fun _ : Str => UnitGrant) (hclear : ¬outcome'.Clear)
    (hkeeps : outcome.Keeps outcome') : JudgedSoFar policy (units ++ [item]) outcome' toWrite h where
  reads := hj.reads
  toWrite w hw := by
    obtain ⟨grant, hgrant, hread⟩ := hj.toWrite w hw
    exact ⟨grant, List.mem_append_left _ hgrant, hread⟩
  clear hc := absurd hc hclear
  keeps := hj.keeps.trans hkeeps

/-- One more unit that was accepted, and perhaps has to be written. -/
theorem JudgedSoFar.accept (hj : JudgedSoFar policy units outcome toWrite h) {name : Str}
    {grant : UnitGrant} {data : ByteArray} (haccepted : checkScaffoldUnitName name policy = none)
    (hread : ⟨.readTree grant.source, .file data⟩ ∈ h) (haccepts : Accepts policy name data)
    (hclear : outcome'.Clear → outcome.Clear) (hkeeps : outcome.Keeps outcome') (more : ToWrite)
    (hmore : ∀ w ∈ more, w = (name, data)) :
    JudgedSoFar policy (units ++ [⟨name, grant⟩]) outcome' (toWrite ++ more) h where
  reads := hj.reads
  toWrite w hw := by
    rcases List.mem_append.mp hw with hold | hnew
    · obtain ⟨g, hg, hold⟩ := hj.toWrite w hold
      exact ⟨g, List.mem_append_left _ hg, hold⟩
    · obtain rfl := hmore w hnew
      exact ⟨grant, List.mem_append_right _ (List.mem_singleton_self _), hread, haccepts⟩
  -- A unit is clear when it was before, or is the new one.
  clear hc item hitem := by
    rcases List.mem_append.mp hitem with hold | hnew
    · exact hj.clear (hclear hc) item hold
    · obtain rfl := List.mem_singleton.mp hnew
      exact ⟨haccepted, data, hread, haccepts⟩
  keeps := hj.keeps.trans hkeeps

/-- Only reads were made. -/
def OnlyReads (_ : Raised) (h : Calls) : Prop := ∀ e ∈ h, e.1.Reads

/-- A unit whose content was accepted. -/
theorem compareUnit_ends (hj : JudgedSoFar policy units outcome toWrite h) {name : Str}
    {grant : UnitGrant} {data : ByteArray} (hname : checkScaffoldUnitName name policy = none)
    (hread : ⟨.readTree grant.source, .file data⟩ ∈ h) (haccepts : Accepts policy name data) :
    (compareUnit (outcome, toWrite) name data).Ends AnyAnswer h
      (fun acc h => JudgedSoFar policy (units ++ [⟨name, grant⟩]) acc.1 acc.2 h) OnlyReads := by
  unfold compareUnit
  rw [ends_bind, ends_ask]
  intro installed _
  have hj' := hj.extend [⟨.readInstalled (unitPath name), installed⟩]
    (fun e he => by rw [List.mem_singleton.mp he]; trivial) id ⟨rfl, rfl⟩
  have hread' : ⟨.readTree grant.source, .file data⟩ ∈
      h ++ [(⟨.readInstalled (unitPath name), installed⟩ : Sigma ApplyCall.Answer)] :=
    List.mem_append_left _ hread
  -- A unit that is unchanged is accepted without a write.
  have hunchanged : ∀ outcome' : ApplyOutcome, (outcome'.Clear → outcome.Clear) →
      outcome.Keeps outcome' → JudgedSoFar policy (units ++ [⟨name, grant⟩]) outcome' toWrite
        (h ++ [⟨.readInstalled (unitPath name), installed⟩]) := by
    intro outcome' hclear hkeeps
    have hmore := hj'.accept hname hread' haccepts hclear hkeeps [] nofun
    rwa [List.append_nil] at hmore
  -- A unit that is changed is accepted with its write.
  have hwrite := hj'.accept hname hread' haccepts id ⟨rfl, rfl⟩ [(name, data)]
    fun w hw => List.mem_singleton.mp hw
  cases installed with
  | raised => exact hj'.reads
  | missing => exact hwrite
  | file old =>
    dsimp only
    split
    · exact hunchanged _ id ⟨rfl, rfl⟩
    · exact hwrite

/-- A unit whose content was read. -/
theorem judgeBytes_ends (hj : JudgedSoFar policy units outcome toWrite h) {name : Str}
    {grant : UnitGrant} {data : ByteArray} (hname : checkScaffoldUnitName name policy = none)
    (hread : ⟨.readTree grant.source, .file data⟩ ∈ h) :
    (judgeBytes policy (outcome, toWrite) name data).Ends AnyAnswer h
      (fun acc h => JudgedSoFar policy (units ++ [⟨name, grant⟩]) acc.1 acc.2 h) OnlyReads := by
  unfold judgeBytes
  split
  · exact hj.reject _ (not_clear_refuse _ _ _) ⟨rfl, rfl⟩
  · rename_i text htext
    split
    · exact hj.reads
    · rename_i hvalid
      exact compareUnit_ends hj hname hread ⟨text, htext, hvalid⟩
    · exact hj.reject _ (not_clear_refuse _ _ _) ⟨rfl, rfl⟩

/-- One unit of the policy. -/
theorem judgeUnit_ends (hj : JudgedSoFar policy units outcome toWrite h)
    (item : Sigma fun _ : Str => UnitGrant) :
    (judgeUnit policy (outcome, toWrite) item).Ends AnyAnswer h
      (fun acc h => JudgedSoFar policy (units ++ [item]) acc.1 acc.2 h) OnlyReads := by
  unfold judgeUnit
  -- A unit whose name is no good is refused without being read.
  split
  · exact hj.reject item (not_clear_refuse _ _ _) ⟨rfl, rfl⟩
  · rename_i hname
    rw [ends_bind, ends_ask]
    intro read _
    have hj' := hj.extend [⟨.readTree item.2.source, read⟩]
      (fun e he => by rw [List.mem_singleton.mp he]; trivial) id ⟨rfl, rfl⟩
    -- What was read is refused, waited for or judged.
    cases read with
    | raised => exact hj'.reads
    | unsafeEntry text => exact hj'.reject item (not_clear_refuse _ _ _) ⟨rfl, rfl⟩
    | missing => exact hj'.reject item (not_clear_wait _ _) ⟨rfl, rfl⟩
    | file data =>
      have hread : ⟨.readTree item.2.source, .file data⟩ ∈
          h ++ [(⟨.readTree item.2.source, .file data⟩ : Sigma ApplyCall.Answer)] :=
        List.mem_append_right _ (List.mem_singleton_self _)
      exact judgeBytes_ends hj' hname hread

/-- One file that only an operator may change. -/
theorem compareOperatorOnly_ends (hj : JudgedSoFar policy units outcome toWrite h)
    (item : Sigma fun _ : Str => Str) :
    (compareOperatorOnly outcome item).Ends AnyAnswer h
      (fun outcome h => JudgedSoFar policy units outcome toWrite h) OnlyReads := by
  unfold compareOperatorOnly
  split
  · exact hj
  rw [ends_bind, ends_ask]
  intro read _
  have htree : ∀ e ∈ [(⟨.readTree item.2, read⟩ : Sigma ApplyCall.Answer)], e.1.Reads :=
    fun e he => by rw [List.mem_singleton.mp he]; trivial
  have hj' := hj.extend _ htree id ⟨rfl, rfl⟩
  cases read with
  | raised => exact hj'.reads
  -- What is refused is not clear.
  | unsafeEntry text => exact hj.extend _ htree (fun hc => absurd hc (not_clear_refuse _ _ _)) ⟨rfl, rfl⟩
  | missing => exact hj'
  | file rendered =>
    unfold compareFile
    rw [ends_bind, ends_ask]
    intro installed _
    have hhost : ∀ e ∈ [(⟨.readInstalled item.1, installed⟩ : Sigma ApplyCall.Answer)],
        e.1.Reads := fun e he => by rw [List.mem_singleton.mp he]; trivial
    cases installed with
    | raised => exact (hj'.extend _ hhost id ⟨rfl, rfl⟩).reads
    -- What the host lacks is waited for.
    | missing => exact hj'.extend _ hhost (fun hc => absurd hc (not_clear_wait _ _)) ⟨rfl, rfl⟩
    | file old =>
      dsimp only
      split
      · exact hj'.extend _ hhost (fun hc => absurd hc (not_clear_wait _ _)) ⟨rfl, rfl⟩
      · exact hj'.extend _ hhost id ⟨rfl, rfl⟩

/-- The manifest is read once. -/
theorem newArtifacts_ends (hj : JudgedSoFar policy units outcome toWrite h)
    (loads : ByteArray → Loaded) (hostname : Str) :
    (newArtifacts loads policy hostname).Ends AnyAnswer h
      (fun _ h => JudgedSoFar policy units outcome toWrite h) OnlyReads := by
  unfold newArtifacts
  rw [ends_bind, ends_ask]
  intro read _
  have hj' := hj.extend [⟨.readTree artifactManifestName, read⟩]
    (fun e he => by rw [List.mem_singleton.mp he]; trivial) id ⟨rfl, rfl⟩
  -- Only a manifest that is there can name something new.
  cases read with
  | raised => exact hj'.reads
  | unsafeEntry text => exact hj'
  | missing => exact hj'
  | file raw =>
    dsimp only
    split
    · exact hj'
    · exact hj'
    · split
      · exact hj'.reads
      · exact hj'

/-- The part before the first write only reads, and clears the apply only if it accepted every
unit. -/
theorem judge_ends (loads : ByteArray → Loaded) (policy : RootPolicy) (hostname : Str) :
    (judge loads policy hostname).Ends AnyAnswer []
      (fun acc h => JudgedSoFar policy (sortedItems policy.units) acc.1 acc.2 h) OnlyReads := by
  unfold judge
  rw [ends_bind]
  have hstart : JudgedSoFar policy [] {} [] [] := ⟨nofun, nofun, fun _ => nofun, rfl, rfl⟩
  -- The units come first, then what only the operator may install, then the manifest.
  refine (Ends.foldlM (I := fun units acc h => JudgedSoFar policy units acc.1 acc.2 h) []
    hstart fun done item _ acc h _ hj => judgeUnit_ends hj item).mono (fun acc h hj => ?_)
    fun _ _ => id
  rw [List.nil_append] at hj
  dsimp only
  rw [ends_bind]
  refine (Ends.foldlM
    (I := fun _ outcome h => JudgedSoFar policy (sortedItems policy.units) outcome acc.2 h) []
    hj fun done item _ outcome h _ hj => compareOperatorOnly_ends hj item).mono
    (fun outcome h hj => ?_) fun _ _ => id
  rw [ends_bind]
  refine (newArtifacts_ends hj loads hostname).mono (fun fresh h hj => ?_) fun _ _ => id
  rw [← List.append_nil h]
  exact hj.extend [] nofun (fun hc => ⟨hc.1, (List.append_eq_nil_iff.mp hc.2).1⟩) ⟨rfl, rfl⟩

/-! ## The writes -/

/-- What was called since the reads ended: no more reads, and only the writes that were due. -/
def ActedSince (reads : Calls) (toWrite : ToWrite) (h : Calls) : Prop :=
  ∃ acts, h = reads ++ acts ∧ (∀ e ∈ acts, ¬e.1.Reads) ∧
    ∀ name data r, ⟨.writeUnit name data, r⟩ ∈ acts → (name, data) ∈ toWrite

variable {reads : Calls}

/-- One more call. -/
theorem ActedSince.snoc (ha : ActedSince reads toWrite h) {c : ApplyCall} (r : c.Answer)
    (hc : ¬c.Reads) (hw : ∀ name data, c = .writeUnit name data → (name, data) ∈ toWrite) :
    ActedSince reads toWrite (h ++ [⟨c, r⟩]) := by
  obtain ⟨acts, rfl, hacts, hwrites⟩ := ha
  refine ⟨acts ++ [⟨c, r⟩], List.append_assoc .., fun e he => ?_, fun name data r' hmem => ?_⟩
  · rcases List.mem_append.mp he with hold | hnew
    · exact hacts e hold
    · rwa [List.mem_singleton.mp hnew]
  · rcases List.mem_append.mp hmem with hold | hnew
    · exact hwrites name data r' hold
    · exact hw name data (congrArg Sigma.fst (List.mem_singleton.mp hnew)).symm

/-- The writes and what follows them. -/
theorem carryOut_ends (policy : RootPolicy) (deployInFlight : Bool) (hclear : outcome.Clear) :
    (carryOut policy deployInFlight outcome toWrite).Ends AnyAnswer reads
      (fun outcome h => ActedSince reads toWrite h ∧ outcome.Clear)
      fun _ h => ActedSince reads toWrite h := by
  unfold carryOut
  rw [ends_bind]
  -- Before the first write nothing was done.
  have hstart : ActedSince reads toWrite reads := ⟨[], (List.append_nil _).symm, nofun, nofun⟩
  refine (Ends.foldlM (I := fun _ (outcome : ApplyOutcome) h =>
    ActedSince reads toWrite h ∧ outcome.Clear) []
    ⟨hstart, hclear⟩ fun done item rest outcome h hsplit hI => ?_).mono (fun outcome h hI => ?_)
    fun _ _ => id
  · have hmem : item ∈ toWrite := by
      rw [List.nil_append] at hsplit
      exact hsplit ▸ List.mem_append_right _ List.mem_cons_self
    unfold writeOne
    rw [ends_bind, ends_ask]
    intro r _
    -- A write is one of those that were judged.
    have hacted := hI.1.snoc (c := .writeUnit item.1 item.2) r id fun name data heq => by
      obtain ⟨rfl, rfl⟩ := ApplyCall.writeUnit.inj heq
      exact hmem
    cases r with
    | done => exact ⟨hacted, hI.2⟩
    | raised changed => exact hacted
  · split
    · exact hI
    rw [ends_bind, ends_ask]
    intro ok _
    -- The reload comes after the writes.
    have hreload := hI.1.snoc (c := .systemctl daemonReload) ok id nofun
    cases ok with
    | false => exact ⟨hreload, hI.2⟩
    | true =>
      refine Ends.foldlM (I := fun _ (outcome : ApplyOutcome) h =>
        ActedSince reads toWrite h ∧ outcome.Clear) []
        ⟨hreload, hI.2⟩ fun done name rest outcome h _ hI => ?_
      unfold runPostAction
      split
      · exact hI.1
      split
      · exact hI
      · exact hI
      · rw [ends_bind, ends_ask]
        intro ok _
        have hacted := hI.1.snoc (c := .systemctl _) ok id nofun
        cases ok with
        | false => exact ⟨hacted, hI.2⟩
        | true => exact ⟨hacted, hI.2⟩

/-- The reads of an apply and what it did after them. -/
theorem JudgedSoFar.twoPhases
    (hj : JudgedSoFar policy (sortedItems policy.units) outcome toWrite reads)
    (hclear : outcome.Clear) (ha : ActedSince reads toWrite h) :
    ∃ acts, h = reads ++ acts ∧ TwoPhases policy reads acts := by
  obtain ⟨acts, rfl, hacts, hwrites⟩ := ha
  have hperm : (sortedItems policy.units).Perm policy.units.entries := List.perm_insertionSort _ _
  refine ⟨acts, rfl, hj.reads, hacts, fun _ item hitem => ?_, fun name data r hmem => ?_⟩
  · exact hj.clear hclear item (hperm.mem_iff.mpr hitem)
  · obtain ⟨grant, hgrant, hread⟩ := hj.toWrite _ (hwrites name data r hmem)
    exact ⟨grant, hperm.mem_iff.mp hgrant, hread⟩

/-- However the tree, the host and `systemctl` answer, the calls of an apply are reads, and then
writes and `systemctl` calls that are made only if every unit of the policy was accepted, and
nothing was refused or is pending; what is written to a unit is what was read and accepted. -/
theorem all_or_nothing (loads : ByteArray → Loaded) (policy : RootPolicy) (hostname : Str)
    (deployInFlight : Bool) :
    (applyScaffold loads policy hostname deployInFlight).Ends AnyAnswer []
      (fun outcome h => ∃ reads acts, h = reads ++ acts ∧ TwoPhases policy reads acts ∧
        (acts ≠ [] → outcome.Clear))
      fun _ h => ∃ reads acts, h = reads ++ acts ∧ TwoPhases policy reads acts := by
  unfold applyScaffold
  rw [ends_bind]
  refine (judge_ends loads policy hostname).mono (fun acc reads hj => ?_) fun _ reads hreads => ?_
  -- Only an apply that cleared everything goes on to write.
  · dsimp only
    split
    · rename_i hok
      have hclear := ApplyOutcome.clear_of_ok hok
      refine (carryOut_ends policy deployInFlight hclear).mono (fun outcome h hdone => ?_)
        fun _ h hacted => ?_
      · obtain ⟨acts, hsplit, hphases⟩ := hj.twoPhases hclear hdone.1
        exact ⟨reads, acts, hsplit, hphases, fun _ => hdone.2⟩
      · exact ⟨reads, hj.twoPhases hclear hacted⟩
    · exact ⟨reads, [], (List.append_nil _).symm, ⟨hj.reads, nofun, absurd rfl, nofun⟩, absurd rfl⟩
  · exact ⟨reads, [], (List.append_nil _).symm, hreads, nofun, absurd rfl, nofun⟩

end Fraisier.Scaffold
