import Fraisier.Scaffold.Build

/-!
# The built policy is consistent

Whatever the render, the units that a built policy grants pass that same policy, and no identity
that it grants is root's. Each file of the host is either granted or an operator's, as long as two
artifacts of one destination do not fare differently (`SameFate`): a destination that is granted for
one artifact and withheld for another is in both lists (`shared_destination`).
-/

namespace Fraisier.Scaffold

open Fraisier.Lib Str Fraisier.Unit

/-! ## Folds that may fail -/

/-- The rule of a loop that may fail: `I` of what is done and the value so far. -/
theorem foldlM_option {α β : Type} {f : β → α → Option β} {I : List α → β → Prop} {b b' : β}
    {todo : List α} (hfold : todo.foldlM f b = some b') (hstart : I [] b)
    (hstep : ∀ done x b b', I done b → f b x = some b' → I (done ++ [x]) b') : I todo b' := by
  induction todo using List.reverseRecOn generalizing b' with
  | nil => exact Option.some.inj hfold ▸ hstart
  | append_singleton xs x ih =>
    rw [List.foldlM_append] at hfold
    obtain ⟨b₁, hb₁, hx⟩ := Option.bind_eq_some_iff.mp hfold
    obtain ⟨b₂, hb₂, hnil⟩ := Option.bind_eq_some_iff.mp hx
    obtain rfl := Option.some.inj hnil
    exact hstep xs x b₁ b₂ (ih hb₁) hb₂

/-! ## Verdicts do not read the lists of the policy -/

variable {policy : RootPolicy} {units : AList fun _ : Str => UnitGrant}
  {operatorOnly : AList fun _ : Str => Str}

/-- The policy with its two lists. -/
abbrev withLists (policy : RootPolicy) (units : AList fun _ : Str => UnitGrant)
    (operatorOnly : AList fun _ : Str => Str) : RootPolicy :=
  { policy with units := units, operatorOnly := operatorOnly }

/-- What a unit is refused for does not depend on which units the policy grants. -/
theorem validateUnit_withLists (name text : Str) :
    validateUnit name text (withLists policy units operatorOnly) =
      validateUnit name text policy := by
  have hsame : ListsSame policy (withLists policy units operatorOnly) :=
    ⟨fun _ => Iff.rfl, fun _ => Iff.rfl, fun _ => Iff.rfl, fun _ => Iff.rfl, fun _ => Iff.rfl⟩
  exact validateUnit_congr hsame name text

/-! ## Identities -/

/-- The name resolves to id 0, or is a zero itself. -/
def ResolvesToRoot (lookup : Str → Option ℕ) (name : Str) : Prop :=
  name = "root".toList ∨ name.allDigits = true ∧ name.intIsZero = some true ∨ lookup name = some 0

/-- A name that is not privileged does not resolve to root. -/
theorem not_root_of_unprivileged {name : Str} {lookup : Str → Option ℕ}
    (h : privileged name lookup = some false) : name ≠ [] ∧ ¬ResolvesToRoot lookup name := by
  unfold privileged at h
  -- A name is root's own, a number, or is looked up.
  split_ifs at h with hname hdigits
  · exact absurd (Option.some.inj h) (by decide)
  · rw [not_or] at hname
    obtain ⟨zero, hzero, hor⟩ := Option.map_eq_some_iff.mp h
    obtain ⟨rfl, hlookup⟩ := Bool.or_eq_false_iff.mp hor
    refine ⟨hname.1, ?_⟩
    rintro (hroot | ⟨-, hzero'⟩ | hlookup')
    · exact hname.2 hroot
    · exact absurd (hzero.symm.trans hzero') (by decide)
    · exact of_decide_eq_false hlookup hlookup'
  · rw [not_or] at hname
    refine ⟨hname.1, ?_⟩
    rintro (hroot | ⟨hdigits', -⟩ | hlookup)
    · exact hname.2 hroot
    · exact hdigits hdigits'
    · exact of_decide_eq_false (Option.some.inj h) hlookup

/-- No identity that was observed is privileged. -/
structure Observed.Unprivileged (uidOf gidOf : Str → Option ℕ) (seen : Observed) : Prop where
  users : ∀ user ∈ seen.users, privileged user uidOf = some false
  groups : ∀ group ∈ seen.groups, privileged group gidOf = some false

/-- One more directive keeps what was observed unprivileged. -/
theorem observeDirective_unprivileged {trees : List Str} {uidOf gidOf : Str → Option ℕ}
    {seen seen' : Observed} {directive : Str × Str × Str} (hseen : seen.Unprivileged uidOf gidOf)
    (h : observeDirective trees uidOf gidOf seen directive = some seen') :
    seen'.Unprivileged uidOf gidOf := by
  obtain ⟨section_, key, value⟩ := directive
  unfold observeDirective at h
  dsimp only at h
  -- The directives that name a user or a group, and those that name neither.
  split_ifs at h
  · exact Option.some.inj h ▸ hseen
  · obtain ⟨root, hroot, rfl⟩ := Option.map_eq_some_iff.mp h
    cases root with
    | true => exact hseen
    | false =>
      refine ⟨fun user huser => ?_, hseen.groups⟩
      rcases List.mem_append.mp huser with hold | hnew
      · exact hseen.users user hold
      · rw [List.mem_singleton.mp hnew]
        exact hroot
  · obtain ⟨root, hroot, rfl⟩ := Option.map_eq_some_iff.mp h
    cases root with
    | true => exact hseen
    | false =>
      refine ⟨hseen.users, fun group hgroup => ?_⟩
      rcases List.mem_append.mp hgroup with hold | hnew
      · exact hseen.groups group hold
      · rw [List.mem_singleton.mp hnew]
        exact hroot
  · exact Option.some.inj h ▸ ⟨hseen.users, hseen.groups⟩
  · exact Option.some.inj h ▸ ⟨hseen.users, hseen.groups⟩
  · exact Option.some.inj h ▸ hseen
  · exact Option.some.inj h ▸ ⟨hseen.users, hseen.groups⟩
  · exact Option.some.inj h ▸ hseen

/-- What is observed in the texts is unprivileged. -/
theorem observe_unprivileged {texts trees : List Str} {uidOf gidOf : Str → Option ℕ}
    {seen : Observed} (h : observe texts trees uidOf gidOf = some seen) :
    seen.Unprivileged uidOf gidOf :=
  foldlM_option (I := fun _ seen => seen.Unprivileged uidOf gidOf) h ⟨nofun, nofun⟩
    fun _ _ _ _ hseen hstep => observeDirective_unprivileged hseen hstep

/-! ## Destinations -/

/-- Where a destination is: its directory and its name. -/
def place (dest : Str) : Str × Str := (dest.dirname, dest.basename)

/-- A base name holds no slash. -/
theorem slash_notMem_basename (s : Str) : '/' ∉ s.basename := by
  intro h
  have := List.mem_rtakeWhile_imp h
  simp at this

/-- A unit lies in systemd's directory under its name. -/
theorem place_unitPath {name : Str} (hname : '/' ∉ name) :
    place (unitPath name) = (systemdDir, name) := by
  -- The name holds no slash, so the last one is that of the directory.
  have hname' : ∀ c ∈ name.reverse, decide (c ≠ '/') = true := by
    intro c hc
    rw [decide_eq_true_iff]
    rintro rfl
    exact hname (List.mem_reverse.mp hc)
  have hreverse : (unitPath name).reverse = name.reverse ++ '/' :: systemdDir.reverse := by
    simp [unitPath]
  have hbasename : (unitPath name).basename = name := by
    unfold basename List.rtakeWhile
    rw [hreverse, List.takeWhile_append_of_pos hname', List.takeWhile_cons]
    simp
  have hhead : (unitPath name).rdropWhile (· ≠ '/') = systemdDir ++ ['/'] := by
    unfold List.rdropWhile
    rw [hreverse, List.dropWhile_append_of_pos hname', List.dropWhile_cons]
    simp
  have hdirname : (unitPath name).dirname = systemdDir := by
    unfold dirname
    rw [hhead]
    decide
  rw [place, hdirname, hbasename]

variable {readSource : Str → Option Str} {artifact : Artifact}

/-- The artifact is a unit that a deploy may change, and the render has it. -/
def Candidate (readSource : Str → Option Str) (artifact : Artifact) : Prop :=
  artifact.action.isSome ∧ (readSource artifact.source).isSome

/-- A candidate lies in systemd's directory. -/
theorem Candidate.dirname (h : Candidate readSource artifact) :
    artifact.dest.dirname = systemdDir := by
  have haction := h.1
  unfold Artifact.action at haction
  split_ifs at haction with hunit
  · exact hunit.1
  · exact absurd haction (by decide)

/-! ## The artifacts of the host -/

/-- The two lists that the artifacts are sorted into. -/
structure Collected.Lists (readSource : Str → Option Str) (chosen : List Artifact)
    (acc : Collected) : Prop where
  kept : ∀ dest, dest ∈ acc.operatorOnly ↔
    ∃ artifact ∈ chosen, ¬Candidate readSource artifact ∧ artifact.dest = dest
  candidate : ∀ name, name ∈ acc.candidates ↔
    ∃ artifact ∈ chosen, Candidate readSource artifact ∧ artifact.dest.basename = name
  text : ∀ name grant text, acc.candidates.lookup name = some (grant, text) →
    readSource grant.source = some text

/-- An artifact that is no candidate. -/
theorem Collected.Lists.keep {chosen : List Artifact} {acc acc' : Collected}
    (hl : acc.Lists readSource chosen) (hno : ¬Candidate readSource artifact)
    (hkept : acc'.operatorOnly = acc.operatorOnly.insert artifact.dest artifact.source)
    (hcandidates : acc'.candidates = acc.candidates) :
    acc'.Lists readSource (chosen ++ [artifact]) where
  -- Its destination is kept, unless it has none.
  kept dest := by
    rw [hkept, AList.mem_insert, hl.kept dest]
    constructor
    · rintro (rfl | ⟨a, ha, hfate⟩)
      · exact ⟨artifact, by simp, hno, rfl⟩
      · exact ⟨a, List.mem_append_left _ ha, hfate⟩
    · rintro ⟨a, ha, hfate⟩
      rcases List.mem_append.mp ha with hold | hnew
      · exact .inr ⟨a, hold, hfate⟩
      · rw [List.mem_singleton.mp hnew] at hfate
        exact .inl hfate.2.symm
  candidate name := by
    rw [hcandidates, hl.candidate name]
    constructor
    · rintro ⟨a, ha, hfate⟩
      exact ⟨a, List.mem_append_left _ ha, hfate⟩
    · rintro ⟨a, ha, hfate⟩
      rcases List.mem_append.mp ha with hold | hnew
      · exact ⟨a, hold, hfate⟩
      · rw [List.mem_singleton.mp hnew] at hfate
        exact absurd hfate.1 hno
  text name grant text hlookup := hl.text name grant text (hcandidates ▸ hlookup)

/-- One artifact is sorted. -/
theorem collect_lists {chosen : List Artifact} {acc : Collected}
    (hl : acc.Lists readSource chosen) :
    (collect readSource acc artifact).Lists readSource (chosen ++ [artifact]) := by
  unfold collect
  -- An artifact without an action, or without a source, is no candidate.
  cases haction : artifact.action with
  | none => exact hl.keep (fun h => by simp [Candidate, haction] at h) rfl rfl
  | some action =>
    cases hsource : readSource artifact.source with
    | none => exact hl.keep (fun h => by simp [Candidate, hsource] at h) rfl rfl
    | some text =>
      have hyes : Candidate readSource artifact := by simp [Candidate, haction, hsource]
      constructor
      · intro dest
        rw [hl.kept dest]
        constructor
        · rintro ⟨a, ha, hfate⟩
          exact ⟨a, List.mem_append_left _ ha, hfate⟩
        · rintro ⟨a, ha, hfate⟩
          rcases List.mem_append.mp ha with hold | hnew
          · exact ⟨a, hold, hfate⟩
          · rw [List.mem_singleton.mp hnew] at hfate
            exact absurd hyes hfate.1
      · intro name
        rw [AList.mem_insert, hl.candidate name]
        constructor
        · rintro (rfl | ⟨a, ha, hfate⟩)
          · exact ⟨artifact, by simp, hyes, rfl⟩
          · exact ⟨a, List.mem_append_left _ ha, hfate⟩
        · rintro ⟨a, ha, hfate⟩
          rcases List.mem_append.mp ha with hold | hnew
          · exact .inr ⟨a, hold, hfate⟩
          · rw [List.mem_singleton.mp hnew] at hfate
            exact .inl hfate.2.symm
      · intro name grant text' hlookup
        by_cases hname : name = artifact.dest.basename
        · rw [hname, AList.lookup_insert] at hlookup
          obtain ⟨rfl, rfl⟩ := Prod.mk.inj (Option.some.inj hlookup)
          exact hsource
        · rw [AList.lookup_insert_ne hname] at hlookup
          exact hl.text name grant text' hlookup

/-- What is collected lists the chosen artifacts. -/
theorem lists_of_collected (readSource : Str → Option Str) (chosen : List Artifact) :
    (chosen.foldl (collect readSource) {}).Lists readSource chosen := by
  induction chosen using List.reverseRecOn with
  | nil => exact ⟨fun dest => by simp, fun name => by simp, nofun⟩
  | append_singleton chosen artifact ih =>
    rw [List.foldl_append]
    exact collect_lists ih

/-! ## The candidates -/

/-- What is granted, and what is left to an operator, of the candidates `done`. -/
structure Granted.Lists (policy : RootPolicy) (kept : AList fun _ : Str => Str)
    (done : List (Sigma fun _ : Str => UnitGrant × Str)) (acc : Granted) : Prop where
  grant : ∀ name grant, acc.units.lookup name = some grant →
    ∃ text, ⟨name, (grant, text)⟩ ∈ done ∧ validateUnit name text policy = some []
  units : ∀ item ∈ done, validateUnit item.1 item.2.2 policy = some [] → item.1 ∈ acc.units
  operatorOnly : ∀ dest, dest ∈ acc.operatorOnly ↔ dest ∈ kept ∨
    ∃ item ∈ done, validateUnit item.1 item.2.2 policy ≠ some [] ∧ unitPath item.1 = dest

/-- One candidate is judged. -/
theorem grantUnit_lists {kept : AList fun _ : Str => Str}
    {done : List (Sigma fun _ : Str => UnitGrant × Str)}
    {item : Sigma fun _ : Str => UnitGrant × Str} {acc acc' : Granted}
    (hl : acc.Lists policy kept done) (hstep : grantUnit policy acc item = some acc') :
    acc'.Lists policy kept (done ++ [item]) := by
  obtain ⟨name, grant, text⟩ := item
  unfold grantUnit at hstep
  obtain ⟨refusals, hverdict, rfl⟩ := Option.map_eq_some_iff.mp hstep
  dsimp only at hverdict
  cases refusals with
  -- A candidate that is not refused gets its grant.
  | nil =>
    constructor
    · intro name' grant' hlookup
      by_cases hname : name' = name
      · subst hname
        rw [AList.lookup_insert] at hlookup
        obtain rfl := Option.some.inj hlookup
        exact ⟨text, by simp, hverdict⟩
      · rw [AList.lookup_insert_ne hname] at hlookup
        obtain ⟨text', hmem, hpasses⟩ := hl.grant name' grant' hlookup
        exact ⟨text', List.mem_append_left _ hmem, hpasses⟩
    · intro item hitem hpasses
      rw [AList.mem_insert]
      rcases List.mem_append.mp hitem with hold | hnew
      · exact .inr (hl.units item hold hpasses)
      · rw [List.mem_singleton.mp hnew]
        exact .inl rfl
    · intro dest
      rw [hl.operatorOnly dest]
      refine or_congr_right ⟨?_, ?_⟩
      · rintro ⟨item, hitem, hfate⟩
        exact ⟨item, List.mem_append_left _ hitem, hfate⟩
      · rintro ⟨item, hitem, hrefused, hdest⟩
        rcases List.mem_append.mp hitem with hold | hnew
        · exact ⟨item, hold, hrefused, hdest⟩
        · rw [List.mem_singleton.mp hnew] at hrefused
          exact absurd hverdict hrefused
  -- A candidate that is refused is kept as an operator's.
  | cons refusal refusals =>
    constructor
    · intro name' grant' hlookup
      obtain ⟨text', hmem, hpasses⟩ := hl.grant name' grant' hlookup
      exact ⟨text', List.mem_append_left _ hmem, hpasses⟩
    · intro item hitem hpasses
      rcases List.mem_append.mp hitem with hold | hnew
      · exact hl.units item hold hpasses
      · rw [List.mem_singleton.mp hnew] at hpasses
        exact absurd (hverdict.symm.trans hpasses) (by simp)
    · intro dest
      rw [AList.mem_insert, hl.operatorOnly dest]
      constructor
      · rintro (rfl | hkept | ⟨item, hitem, hfate⟩)
        · exact .inr ⟨_, by simp, by simp [hverdict], rfl⟩
        · exact .inl hkept
        · exact .inr ⟨item, List.mem_append_left _ hitem, hfate⟩
      · rintro (hkept | ⟨item, hitem, hrefused, hdest⟩)
        · exact .inr (.inl hkept)
        · rcases List.mem_append.mp hitem with hold | hnew
          · exact .inr (.inr ⟨item, hold, hrefused, hdest⟩)
          · rw [List.mem_singleton.mp hnew] at hdest
            exact .inl hdest.symm

/-! ## The policy -/

variable {input : BuildInput}

/-- A deploy may change the file at the destination. -/
def InUnits (policy : RootPolicy) (dest : Str) : Prop :=
  dest.dirname = systemdDir ∧ dest.basename ∈ policy.units

/-- Only an operator may change the file at the destination. -/
def InOperatorOnly (policy : RootPolicy) (dest : Str) : Prop :=
  ∃ dest' ∈ policy.operatorOnly, place dest' = place dest

/-- Of two artifacts of the host with one destination, both are candidates or neither is. -/
def SameFate (input : BuildInput) (chosen : List Artifact) : Prop :=
  ∀ a ∈ chosen, ∀ b ∈ chosen, place a.dest = place b.dest →
    Candidate input.readSource a → Candidate input.readSource b

/-- What a built policy says agrees with itself and with the host. -/
structure Consistent (input : BuildInput) (policy : RootPolicy) : Prop where
  /-- Every unit it grants passes under it. -/
  passes : ∀ name grant, policy.units.lookup name = some grant →
    ∃ text, input.readSource grant.source = some text ∧ validateUnit name text policy = some []
  /-- Every artifact of the host is in one of the two lists. -/
  once : ∀ chosen, hostArtifacts input.payload input.hostname = some chosen →
    SameFate input chosen → ∀ artifact ∈ chosen,
      InUnits policy artifact.dest ∧ ¬InOperatorOnly policy artifact.dest ∨
        InOperatorOnly policy artifact.dest ∧ ¬InUnits policy artifact.dest
  users : ∀ user ∈ policy.users, user ≠ [] ∧ ¬ResolvesToRoot input.uidOf user
  groups : ∀ group ∈ policy.groups, group ≠ [] ∧ ¬ResolvesToRoot input.gidOf group

/-- The two lists of the final policy, from those of the artifacts and of the candidates. -/
theorem once_of_lists {chosen : List Artifact} {collected : Collected} {granted : Granted}
    (hcollected : collected.Lists input.readSource chosen)
    (hgranted : granted.Lists policy collected.operatorOnly (sortedItems collected.candidates))
    (hfate : SameFate input chosen) (ha : artifact ∈ chosen) :
    InUnits (withLists policy granted.units granted.operatorOnly) artifact.dest ∧
        ¬InOperatorOnly (withLists policy granted.units granted.operatorOnly) artifact.dest ∨
      InOperatorOnly (withLists policy granted.units granted.operatorOnly) artifact.dest ∧
        ¬InUnits (withLists policy granted.units granted.operatorOnly) artifact.dest := by
  have hperm : (sortedItems collected.candidates).Perm collected.candidates.entries :=
    List.perm_insertionSort _ _
  -- a name has one candidate
  have hunique : ∀ item ∈ sortedItems collected.candidates,
      ∀ item' ∈ sortedItems collected.candidates, item.1 = item'.1 → item = item' := by
    intro item hitem item' hitem' hname
    exact List.NodupKeys.eq_of_fst_eq collected.candidates.nodupKeys (hperm.mem_iff.mp hitem)
      (hperm.mem_iff.mp hitem') hname
  have hof_candidate : ∀ item ∈ sortedItems collected.candidates,
      ∃ b ∈ chosen, Candidate input.readSource b ∧ b.dest.basename = item.1 := by
    intro item hitem
    have hmem : item.1 ∈ collected.candidates :=
      AList.mem_keys.mpr (List.mem_keys_of_mem (hperm.mem_iff.mp hitem))
    exact (hcollected.candidate _).mp hmem
  have hplain : ∀ item ∈ sortedItems collected.candidates, '/' ∉ item.1 := by
    intro item hitem
    obtain ⟨b, -, -, hname⟩ := hof_candidate item hitem
    rw [← hname]
    exact slash_notMem_basename _
  have hof_units : ∀ name ∈ granted.units, ∃ item ∈ sortedItems collected.candidates,
      item.1 = name ∧ validateUnit item.1 item.2.2 policy = some [] := by
    intro name hname
    obtain ⟨grant, hlookup⟩ := Option.isSome_iff_exists.mp (AList.lookup_isSome.mpr hname)
    obtain ⟨text, hmem, hpasses⟩ := hgranted.grant name grant hlookup
    exact ⟨_, hmem, rfl, hpasses⟩
  by_cases hcandidate : Candidate input.readSource artifact
  · have hmem : artifact.dest.basename ∈ collected.candidates :=
      (hcollected.candidate _).mpr ⟨artifact, ha, hcandidate, rfl⟩
    obtain ⟨content, hlookup⟩ := Option.isSome_iff_exists.mp (AList.lookup_isSome.mpr hmem)
    have hitem : ⟨artifact.dest.basename, content⟩ ∈ sortedItems collected.candidates :=
      hperm.mem_iff.mpr (AList.mem_lookup_iff.mp hlookup)
    have hplace : place artifact.dest = (systemdDir, artifact.dest.basename) :=
      Prod.ext hcandidate.dirname rfl
    by_cases hpasses : validateUnit artifact.dest.basename content.2 policy = some []
    · left
      refine ⟨⟨hcandidate.dirname, hgranted.units _ hitem hpasses⟩, ?_⟩
      rintro ⟨dest, hdest, hsame⟩
      rcases (hgranted.operatorOnly dest).mp hdest with hkept | ⟨item, hitem', hrefused, rfl⟩
      · obtain ⟨b, hb, hno, rfl⟩ := (hcollected.kept _).mp hkept
        exact hno (hfate artifact ha b hb hsame.symm hcandidate)
      · rw [place_unitPath (hplain item hitem'), hplace] at hsame
        obtain rfl := hunique item hitem' _ hitem (Prod.mk.inj hsame).2
        exact hrefused hpasses
    · right
      refine ⟨⟨unitPath artifact.dest.basename, ?_, ?_⟩, ?_⟩
      · exact (hgranted.operatorOnly _).mpr (.inr ⟨_, hitem, hpasses, rfl⟩)
      · rw [place_unitPath (slash_notMem_basename _), hplace]
      · rintro ⟨-, hunits⟩
        obtain ⟨item, hitem', hname, hpasses'⟩ := hof_units _ hunits
        obtain rfl := hunique item hitem' _ hitem hname
        exact hpasses hpasses'
  · right
    refine ⟨⟨artifact.dest, ?_, rfl⟩, ?_⟩
    · exact (hgranted.operatorOnly _).mpr
        (.inl ((hcollected.kept _).mpr ⟨artifact, ha, hcandidate, rfl⟩))
    · rintro ⟨hdirname, hunits⟩
      obtain ⟨item, hitem, hname, -⟩ := hof_units _ hunits
      obtain ⟨b, hb, hcandidate', hname'⟩ := hof_candidate item hitem
      have hsame : place b.dest = place artifact.dest :=
        Prod.ext (hcandidate'.dirname.trans hdirname.symm) (hname'.trans hname)
      exact hcandidate (hfate b hb artifact ha hsame hcandidate')

/-- A build that got past a value that `int` may fail on had the value. -/
theorem of_orRaised_bind {α β : Type} {o : Option α} {f : α → Except BuildError β} {b : β}
    (h : orRaised o >>= f = .ok b) : ∃ a, o = some a ∧ f a = .ok b := by
  cases o with
  | none => exact absurd h (by simp [orRaised, bind, Except.bind])
  | some a => exact ⟨a, rfl, h⟩

/-- Every policy that is built is consistent. -/
theorem policy_consistent (input : BuildInput) (draft : PolicyDraft)
    (hbuild : buildPolicy input = .ok draft) : Consistent input draft.policy := by
  unfold buildPolicy at hbuild
  split at hbuild
  · exact absurd hbuild (by simp)
  rename_i chosen hchosen
  dsimp only at hbuild
  -- The artifacts are sorted, then the directives observed, then the candidates judged.
  have hcollected := lists_of_collected input.readSource chosen
  generalize chosen.foldl (collect input.readSource) {} = collected at hcollected hbuild
  obtain ⟨seen, hseen, hbuild⟩ := of_orRaised_bind hbuild
  obtain ⟨granted, hgranted, hbuild⟩ := of_orRaised_bind hbuild
  obtain ⟨notes, -, hbuild⟩ := of_orRaised_bind hbuild
  obtain rfl := Except.ok.inj hbuild
  have hunprivileged := observe_unprivileged hseen
  have hlists : granted.Lists (basePolicy input seen) collected.operatorOnly
      (sortedItems collected.candidates) :=
    foldlM_option (I := Granted.Lists (basePolicy input seen) collected.operatorOnly) hgranted
      ⟨nofun, nofun, fun dest => by simp⟩ fun _ _ _ _ => grantUnit_lists
  -- The four clauses of consistency.
  constructor
  · intro name grant hgrant
    obtain ⟨text, hmem, hpasses⟩ := hlists.grant name grant hgrant
    have hentries := (List.perm_insertionSort _ _).mem_iff.mp hmem
    refine ⟨text, hcollected.text name grant text (AList.mem_lookup_iff.mpr hentries), ?_⟩
    rw [← hpasses]
    exact validateUnit_withLists name text
  · intro chosen' hchosen' hfate artifact ha
    obtain rfl := Option.some.inj (hchosen.symm.trans hchosen')
    exact once_of_lists hcollected hlists hfate ha
  · exact fun user huser => not_root_of_unprivileged (hunprivileged.users user huser)
  · exact fun group hgroup => not_root_of_unprivileged (hunprivileged.groups group hgroup)

/-! ## One destination for two artifacts -/

/-- A render for the host `web` whose units all hold the same text. -/
def appInput (artifacts : List Artifact) : BuildInput where
  project := "app".toList
  scaffoldDir := "/srv/scaffold".toList
  payload := ⟨artifacts, (∅ : AList fun _ : Str => HostScope).insert "web".toList ⟨[], [], none⟩⟩
  hostname := "web".toList
  readSource _ := some "[Service]\nUser=app\nExecStart=/usr/bin/app\n".toList
  appUnits := ∅
  trees := ["/srv/app".toList]
  uidOf name := if name = "app".toList then some 1000 else none
  gidOf _ := none

/-- The unit of the app. -/
def appArtifact : Artifact where
  source := "systemd/app.service".toList
  disposition := "plain".toList
  destination := some "/etc/systemd/system/app.service".toList

/-- A unit of a root helper, which no deploy may change. -/
def helperArtifact (name : String) : Artifact where
  source := "systemd/helper.service".toList
  disposition := "unit_installer".toList
  destination := some (unitPath name.toList)

/-- What was built, if something was. -/
def builtPolicy (input : BuildInput) : Option RootPolicy :=
  match buildPolicy input with
  | .ok draft => some draft.policy
  | .error _ => none

/-- A policy that is built is the one returned. -/
theorem buildPolicy_of_built (input : BuildInput) (test : RootPolicy → Bool)
    (h : (builtPolicy input).any test = true) :
    ∃ draft, buildPolicy input = .ok draft ∧ test draft.policy = true := by
  unfold builtPolicy at h
  split at h
  · exact ⟨_, ‹_›, h⟩
  · exact absurd h (by simp)

set_option maxRecDepth 100000 in
/-- The render of an app and a helper is consistent. -/
theorem policy_consistent_app : ∃ draft,
    buildPolicy (appInput [appArtifact, helperArtifact "helper.service"]) = .ok draft ∧
      Consistent (appInput [appArtifact, helperArtifact "helper.service"]) draft.policy := by
  obtain ⟨draft, hdraft, -⟩ := buildPolicy_of_built
    (appInput [appArtifact, helperArtifact "helper.service"]) (fun _ => true) (by decide)
  exact ⟨draft, hdraft, policy_consistent _ draft hdraft⟩

set_option maxRecDepth 100000 in
/-- A destination that a deploy may change through one artifact and not through another is in both
lists. -/
theorem shared_destination : ∃ draft,
    buildPolicy (appInput [appArtifact, helperArtifact "app.service"]) = .ok draft ∧
      ∃ chosen, hostArtifacts (appInput [appArtifact, helperArtifact "app.service"]).payload
          "web".toList = some chosen ∧ ∃ artifact ∈ chosen,
        InUnits draft.policy artifact.dest ∧ InOperatorOnly draft.policy artifact.dest := by
  obtain ⟨draft, hdraft, htest⟩ := buildPolicy_of_built
    (appInput [appArtifact, helperArtifact "app.service"])
    (fun policy => decide ("app.service".toList ∈ policy.units) &&
      decide (appArtifact.dest ∈ policy.operatorOnly)) (by decide)
  rw [Bool.and_eq_true, decide_eq_true_iff, decide_eq_true_iff] at htest
  refine ⟨draft, hdraft, [appArtifact, helperArtifact "app.service"], by decide, appArtifact,
    List.mem_cons_self, ⟨by decide, ?_⟩, appArtifact.dest, htest.2, rfl⟩
  have hname : appArtifact.dest.basename = "app.service".toList := by decide
  rw [hname]
  exact htest.1

end Fraisier.Scaffold
