import Fraisier.Unit.Commands

/-!
# What a unit that is not refused may do

The judgement of `validate_unit` by its own reading of a unit. The loop of the validator and that of
`unit_directives` each walk the logical lines; `judged` is what the first one judges, `unitDirectives`
what the second one lists. `validateUnit_sound` says that where nothing was refused both are the same
sequence, and what every assignment in it is limited to.
-/

namespace Fraisier.Unit

open Fraisier.Lib Str

/-! ## What the loop judges -/

/-- The section after a line: a header's name is what stands between its brackets. -/
def sectionAfter (section_ line : Str) : Str :=
  if line.head? = some '[' then (line.strip.drop 1).dropLast else section_

/-- The assignment whose value is judged on a line, if one is. -/
def judgedOn (j : Judging) (section_ line : Str) : List (Str × Str × Str) :=
  let (key, sep, value) := line.partition '='
  if line.head? ≠ some '[' ∧ sep ∧ isDirective key.strip ∧
      (lookup (j.current.getD []) key.strip).isSome then
    [(section_, key.strip, value.strip)]
  else []

/-- The assignments whose values the loop of `validate_unit` judges, each with its section. -/
def judged (suffix : Suffix) (policy : RootPolicy) :
    Judging → Str → List (ℕ × Str) → List (Str × Str × Str)
  | _, _, [] => []
  | j, section_, (number, line) :: rest =>
    match judgeLine suffix policy j number line with
    | none => []
    | some j' =>
      judgedOn j section_ line ++ judged suffix policy j' (sectionAfter section_ line) rest

/-- The values of `User=`. -/
def usersIn (assignments : List (Str × Str × Str)) : List Str :=
  (assignments.filter fun a => a.2.1 = "User".toList).map (·.2.2)

variable {suffix : Suffix} {policy : RootPolicy} {j j' : Judging} {number : ℕ} {line : Str}

/-- A section's header is not judged. -/
theorem judgedOn_header (section_ : Str) (h : line.head? = some '[') :
    judgedOn j section_ line = [] := by
  unfold judgedOn
  exact if_neg fun hjudged => hjudged.1 h

/-- A line adds the users of what is judged on it. -/
theorem judgeLine_users (section_ : Str) (h : judgeLine suffix policy j number line = some j') :
    j'.users = j.users ++ usersIn (judgedOn j section_ line) := by
  unfold judgeLine at h
  by_cases hheader : line.head? = some '['
  · rw [if_pos hheader] at h
    rw [judgedOn_header section_ hheader]
    dsimp only at h
    split at h <;> obtain rfl := Option.some.inj h <;> exact (List.append_nil _).symm
  rw [if_neg hheader] at h
  rcases hpartition : line.partition '=' with ⟨key, sep, value⟩
  simp only [hpartition] at h
  have hnone : (sep = true → isDirective key.strip = true →
      lookup (j.current.getD []) key.strip = none) → judgedOn j section_ line = [] := by
    intro hlookup
    unfold judgedOn
    simp only [hpartition]
    refine if_neg fun hjudged => ?_
    rw [hlookup hjudged.2.1 hjudged.2.2.1] at hjudged
    exact absurd hjudged.2.2.2 (by simp)
  by_cases hdirective : (!sep || !isDirective key.strip) = true
  · rw [if_pos hdirective] at h
    obtain rfl := Option.some.inj h
    rw [hnone fun hsep hkey => by simp [hsep, hkey] at hdirective]
    exact (List.append_nil _).symm
  rw [if_neg hdirective] at h
  cases hcurrent : j.current with
  | none =>
    simp only [hcurrent] at h
    obtain rfl := Option.some.inj h
    rw [hnone fun _ _ => by rw [hcurrent]; rfl]
    exact (List.append_nil _).symm
  | some directives => cases directives with
    | nil =>
      simp only [hcurrent] at h
      obtain rfl := Option.some.inj h
      rw [hnone fun _ _ => by rw [hcurrent]; rfl]
      exact (List.append_nil _).symm
    | cons d ds =>
      simp only [hcurrent] at h
      cases hkind : lookup (d :: ds) key.strip with
      | none =>
        simp only [hkind] at h
        obtain rfl := Option.some.inj h
        rw [hnone fun _ _ => by rw [hcurrent]; exact hkind]
        exact (List.append_nil _).symm
      | some kind =>
        simp only [hkind] at h
        obtain ⟨verdict, -, rfl⟩ := Option.map_eq_some_iff.mp h
        have hjudged : judgedOn j section_ line = [(section_, key.strip, value.strip)] := by
          unfold judgedOn
          simp only [hpartition]
          refine if_pos ⟨hheader, ?_⟩
          simp only [Bool.or_eq_true, Bool.not_eq_true', not_or, Bool.not_eq_false] at hdirective
          exact ⟨hdirective.1, hdirective.2, by rw [hcurrent, Option.getD_some, hkind]; rfl⟩
        rw [hjudged, usersIn]
        -- a refusal of the value leaves the users as they are
        by_cases huser : key.strip = "User".toList
        · rw [if_pos huser, List.filter_cons_of_pos (by simp [huser])]
          cases verdict <;> rfl
        · rw [if_neg huser, List.filter_cons_of_neg (by simpa using huser)]
          cases verdict <;> exact (List.append_nil _).symm

/-- The users are those of the parts in order. -/
theorem usersIn_append (as bs : List (Str × Str × Str)) :
    usersIn (as ++ bs) = usersIn as ++ usersIn bs := by
  unfold usersIn
  rw [List.filter_append, List.map_append]

/-- The users that the loop has seen are those of what it judged. -/
theorem judgeLines_users {lines : List (ℕ × Str)} (section_ : Str)
    (h : judgeLines suffix policy j lines = some j') :
    j'.users = j.users ++ usersIn (judged suffix policy j section_ lines) := by
  induction lines generalizing j section_ with
  | nil =>
    obtain rfl := Option.some.inj h
    exact (List.append_nil _).symm
  | cons first rest ih =>
    obtain ⟨number, line⟩ := first
    obtain ⟨j₁, hfirst, hrest⟩ := Option.bind_eq_some_iff.mp h
    have hstep : judged suffix policy j section_ ((number, line) :: rest) =
        judgedOn j section_ line ++ judged suffix policy j₁ (sectionAfter section_ line) rest := by
      rw [judged, hfirst]
    rw [hstep, usersIn_append, ih _ hrest, judgeLine_users section_ hfirst, List.append_assoc]

/-! ## Both readings list the same -/

/-- The directives whose values are judged, by what they are judged as. -/
def judgedKeys : List (Kind × List String) :=
  [(.exec, execKeys), (.directory, directoryKeys), (.user, ["User"]), (.group, ["Group"]),
    (.readPath, ["EnvironmentFile", "LoadCredential"]), (.environment, ["Environment"]),
    (.stdio, ["StandardInput", "StandardOutput", "StandardError"])]

/-- The sections of services and of timers. -/
def allSections : List (String × Directives) :=
  [("Unit", unitSection), ("Service", serviceSection), ("Timer", timerSection),
    ("Install", installSection)]

/-- A section of a unit type is one of all. -/
theorem mem_allSections {e : String × Directives} (h : e ∈ sections suffix) : e ∈ allSections := by
  cases suffix with
  | service =>
    simp only [sections, List.mem_cons, List.not_mem_nil, or_false] at h
    obtain rfl | rfl | rfl := h <;> simp [allSections]
  | timer =>
    simp only [sections, List.mem_cons, List.not_mem_nil, or_false] at h
    obtain rfl | rfl | rfl := h <;> simp [allSections]

/-- What a section lists is a directive, and is judged as what it is judged as everywhere. -/
theorem allSections_spec : ∀ e ∈ allSections, ∀ d ∈ e.2, isDirective d.1.toList = true ∧
    ∀ k ∈ judgedKeys, d.1 ∈ k.2 → d.2 = k.1 := by
  decide +kernel

/-- Where nothing was refused the loop judged every assignment there is. -/
theorem judged_eq {lines : List (ℕ × Str)} (section_ : Str)
    (hsection : InSection suffix section_ j) (h : judgeLines suffix policy j lines = some j')
    (hnil : j'.refusals = []) : directivesOf section_ lines = judged suffix policy j section_ lines := by
  -- Induction on the lines, with the section that is open.
  induction lines generalizing j section_ with
  | nil => rfl
  | cons first rest ih =>
    obtain ⟨number, line⟩ := first
    obtain ⟨j₁, hfirst, hrest⟩ := Option.bind_eq_some_iff.mp h
    have hnil₁ : j₁.refusals = [] := by
      have hmore := judgeLines_refusals hrest
      rw [hnil] at hmore
      exact List.prefix_nil.mp hmore
    have hpasses := (judgeLine_cases hfirst).2 hnil₁
    unfold Passes at hpasses
    rw [directivesOf, judged, hfirst]
    dsimp only
    -- A header opens a section, any other line is judged in it.
    by_cases hheader : line.head? = some '['
    · rw [if_pos hheader] at hpasses
      obtain ⟨directives, hlast, hlookup, hcurrent⟩ := hpasses
      have hhead : line.strip.head? = some '[' := by
        obtain ⟨r, rfl⟩ := List.head?_eq_some_iff.mp hheader
        obtain ⟨r', hr'⟩ : ∃ r', strip ('[' :: r) = '[' :: r' := stripBy_cons (by decide) r
        rw [hr', List.head?_cons]
      rw [if_pos hheader, judgedOn_header section_ hheader, List.nil_append, sectionAfter,
        if_pos hheader, header_name hhead hlast hlookup]
      refine ih _ (fun directives' h' => ?_) hrest
      rw [hlookup, ← hcurrent, h']
    · rw [if_neg hheader] at hpasses
      obtain ⟨key, value, hpartition, hcurrent, hallowed⟩ := hpasses
      have hsection₁ : InSection suffix section_ j₁ := by
        unfold InSection
        rw [hcurrent]
        exact hsection
      have hon : judgedOn j section_ line = [(section_, key.strip, value.strip)] := by
        obtain hempty | ⟨directives, kind, hin, hkind, -⟩ := hallowed
        · obtain ⟨e, he, -, hdirectives⟩ := lookup_mem (hsection [] hempty)
          exact absurd hdirectives (sections_ne_nil suffix e he)
        · obtain ⟨e, he, -, hdirectives⟩ := lookup_mem (hsection directives hin)
          obtain ⟨d, hd, hname, -⟩ := lookup_mem hkind
          have hkey := (allSections_spec e (mem_allSections he) d (hdirectives ▸ hd)).1
          unfold judgedOn
          simp only [hpartition]
          refine if_pos ⟨hheader, trivial, hname ▸ hkey, ?_⟩
          rw [hin, Option.getD_some, hkind]
          rfl
      rw [if_neg hheader, hpartition, hon, sectionAfter, if_neg hheader]
      exact congrArg ((section_, key.strip, value.strip) :: ·) (ih section_ hsection₁ hrest)

/-! ## What an allowed assignment is limited to -/

/-- An allowed directive has a value its kind allows. -/
theorem value_allowed {a : Str × Str × Str} (h : Allowed suffix policy a) (kind : Kind)
    (keys : List String) (hk : (kind, keys) ∈ judgedKeys) (hkey : isOneOf keys a.2.1 = true) :
    valueRefusal kind a.2.1 a.2.2 policy = some none := by
  obtain ⟨directives, kind', hdirectives, hkind, hvalue⟩ := h
  obtain ⟨e, he, -, rfl⟩ := lookup_mem hdirectives
  obtain ⟨d, hd, hname, rfl⟩ := lookup_mem hkind
  obtain ⟨s, hs, hsname⟩ := List.any_eq_true.mp hkey
  have hmem : d.1 ∈ keys := by
    rw [← String.toList_inj.mp ((of_decide_eq_true hsname).trans hname.symm)]
    exact hs
  have hsame : d.2 = kind :=
    (allSections_spec e (mem_allSections he) d hd).2 (kind, keys) hk hmem
  rw [← hsame]
  exact hvalue

/-- A name that is not refused is not root's and is on the list. -/
theorem identityRefusal_none {rule : Rule} {what noun : String} {listed : List Str} {value : Str}
    (h : identityRefusal rule what noun listed value = some none) :
    isRootIdentity value = some false ∧ value ∈ listed := by
  unfold identityRefusal at h
  dsimp only at h
  -- An empty name is refused, and so is root's, and one that is not listed.
  by_cases hnil : value = []
  · rw [if_pos hnil] at h
    cases Option.some.inj h
  rw [if_neg hnil] at h
  obtain ⟨root, hroot, hverdict⟩ := Option.map_eq_some_iff.mp h
  have hpasses : ¬(root || decide (value ∉ listed)) = true := by
    intro hrefused
    rw [if_pos hrefused] at hverdict
    cases hverdict
  simp only [Bool.or_eq_true, decide_eq_true_eq, not_or, Bool.not_eq_true, not_not] at hpasses
  exact ⟨hpasses.1 ▸ hroot, hpasses.2⟩

/-- An environment that is not refused sets no variable of the loader's. -/
theorem environmentRefusal_none {value : Str} (h : environmentRefusal value = none) :
    ∃ variables_, Shlex.split value = .ok variables_ ∧
      ∀ v ∈ variables_, isLoaderVariable (v.partition '=').1 = false := by
  unfold environmentRefusal at h
  cases hsplit : Shlex.split value with
  | error e => simp [hsplit] at h
  | ok variables_ =>
    simp only [hsplit, Option.map_eq_none_iff, List.find?_eq_none, Bool.not_eq_true] at h
    exact ⟨variables_, rfl, fun v hv => h _ (List.mem_map_of_mem hv)⟩

/-- What the assignments of a unit are limited to. -/
structure Sound (suffix : Suffix) (policy : RootPolicy) (assignments : List (Str × Str × Str)) :
    Prop where
  /-- The section and the key are allowed for the suffix. -/
  allowed : ∀ a ∈ assignments, ∃ directives, lookup (sections suffix) a.1 = some directives ∧
    (lookup directives a.2.1).isSome
  /-- A service names a user. -/
  someUser : suffix = .service → ∃ a ∈ assignments, a.2.1 = "User".toList
  user : ∀ a ∈ assignments, a.2.1 = "User".toList →
    isRootIdentity a.2.2 = some false ∧ a.2.2 ∈ policy.users
  group : ∀ a ∈ assignments, a.2.1 = "Group".toList →
    isRootIdentity a.2.2 = some false ∧ a.2.2 ∈ policy.groups
  environment : ∀ a ∈ assignments, a.2.1 = "Environment".toList → ∃ variables_,
    Shlex.split a.2.2 = .ok variables_ ∧
      ∀ v ∈ variables_, isLoaderVariable (v.partition '=').1 = false
  /-- A command has harmless prefixes and a granted executable; an empty value resets the list. -/
  exec : ∀ a ∈ assignments, isOneOf execKeys a.2.1 = true → a.2.2 = [] ∨
    (∀ p ∈ a.2.2.takeWhile isExecPrefix, p ∈ harmlessExecPrefixes) ∧
      ∃ executable args, Shlex.split (a.2.2.dropWhile isExecPrefix) = .ok (executable :: args) ∧
        executable.isAbs = true ∧ executable.normpath = executable ∧
        granted policy.execPrefixes executable = true
  read : ∀ a ∈ assignments, isOneOf ["EnvironmentFile", "LoadCredential"] a.2.1 = true →
    readPath a.2.1 a.2.2 ∈ policy.readPaths
  directory : ∀ a ∈ assignments, isOneOf directoryKeys a.2.1 = true →
    ∀ d ∈ a.2.2.fields, d ∈ policy.directories
  stdio : ∀ a ∈ assignments,
    isOneOf ["StandardInput", "StandardOutput", "StandardError"] a.2.1 = true →
      isOneOf safeStdio a.2.2 = true

/-- Assignments that were allowed, and a user among them if it is a service. -/
theorem sound_of_allowed {assignments : List (Str × Str × Str)}
    (h : ∀ a ∈ assignments, Allowed suffix policy a)
    (huser : suffix = .service → usersIn assignments ≠ []) :
    Sound suffix policy assignments := by
  -- One clause for each kind of directive.
  refine ⟨?_, ?_, ?_, ?_, ?_, ?_, ?_, ?_, ?_⟩
  · intro a ha
    obtain ⟨directives, kind, hdirectives, hkind, -⟩ := h a ha
    exact ⟨directives, hdirectives, Option.isSome_of_mem hkind⟩
  · intro hservice
    obtain ⟨v, hv⟩ := List.exists_mem_of_ne_nil _ (huser hservice)
    obtain ⟨a, ha, -⟩ := List.mem_map.mp hv
    obtain ⟨ha, hkey⟩ := List.mem_filter.mp ha
    exact ⟨a, ha, of_decide_eq_true hkey⟩
  · intro a ha hkey
    exact identityRefusal_none (value_allowed (h a ha) .user ["User"]
      (by decide) (by rw [hkey]; decide))
  · intro a ha hkey
    exact identityRefusal_none (value_allowed (h a ha) .group ["Group"]
      (by decide) (by rw [hkey]; decide))
  · intro a ha hkey
    exact environmentRefusal_none (Option.some.inj (value_allowed (h a ha) .environment
      ["Environment"] (by decide) (by rw [hkey]; decide)))
  · intro a ha hkey
    have hvalue := Option.some.inj (value_allowed (h a ha) .exec _ (by decide) hkey)
    -- An empty command is a reset.
    by_cases hnil : a.2.2 = []
    · exact .inl hnil
    · exact .inr (execRefusal_none hvalue hnil)
  · intro a ha hkey
    have hvalue := Option.some.inj (value_allowed (h a ha) .readPath _ (by decide) hkey)
    by_contra hnot
    unfold readPathRefusal at hvalue
    rw [if_neg hnot] at hvalue
    cases hvalue
  · intro a ha hkey d hd
    have hvalue := Option.some.inj (value_allowed (h a ha) .directory _ (by decide) hkey)
    rw [Option.map_eq_none_iff, List.find?_eq_none] at hvalue
    simpa using hvalue d hd
  · intro a ha hkey
    have hvalue := Option.some.inj (value_allowed (h a ha) .stdio _ (by decide) hkey)
    by_contra hnot
    rw [if_neg hnot] at hvalue
    cases hvalue

/-! ## The unit -/

/-- Where nothing is refused, every assignment that `unit_directives` lists is limited to what the
policy grants, and the list is the sequence that was judged. -/
theorem validateUnit_sound (name text : Str) (policy : RootPolicy)
    (h : validateUnit name text policy = some []) :
    ∃ suffix lines, suffixOf name = some suffix ∧ logicalLines text = .ok lines ∧
      Sound suffix policy (unitDirectives text) ∧
      unitDirectives text = judged suffix policy {} [] lines := by
  obtain ⟨suffix, lines, hsuffix, hcontrol, hlines, hallowed⟩ := validateUnit_allowed h
  have hlist : unitDirectives text = directivesOf [] lines := by
    rw [unitDirectives, hlines]
  -- The loop refused nothing, and named a user if it had to.
  have hjudging : ∃ j, judgeLines suffix policy {} lines = some j ∧ j.refusals = [] ∧
      ¬(suffix = .service ∧ j.users = []) := by
    unfold validateUnit at h
    simp only [hsuffix, hcontrol, hlines, Bool.false_eq_true, if_false,
      Option.map_eq_some_iff] at h
    obtain ⟨j, hj, hrefusals⟩ := h
    by_cases hnobody : suffix = .service ∧ j.users = []
    · rw [if_pos hnobody] at hrefusals
      exact absurd hrefusals (List.append_ne_nil_of_right_ne_nil _ (List.cons_ne_nil _ _))
    · rw [if_neg hnobody] at hrefusals
      exact ⟨j, hj, hrefusals, hnobody⟩
  obtain ⟨j, hj, hnil, hnobody⟩ := hjudging
  have hstart : InSection suffix [] {} := fun directives hnone => absurd hnone (by simp)
  have hsame := judged_eq [] hstart hj hnil
  refine ⟨suffix, lines, hsuffix, hlines, ?_, hlist.trans hsame⟩
  rw [hlist]
  refine sound_of_allowed hallowed fun hservice husers => hnobody ⟨hservice, ?_⟩
  rw [judgeLines_users [] hj, ← hsame, husers]
  rfl

/-- A unit that is not refused. -/
theorem validateUnit_sound_appUnit : ∃ suffix lines,
    suffixOf "app.service".toList = some suffix ∧ logicalLines appUnit = .ok lines ∧
      Sound suffix appPolicy (unitDirectives appUnit) ∧
      unitDirectives appUnit = judged suffix appPolicy {} [] lines :=
  validateUnit_sound "app.service".toList appUnit appPolicy (by decide +kernel)

end Fraisier.Unit
