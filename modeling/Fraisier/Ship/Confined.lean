import Fraisier.Lib.Partition
import Fraisier.Lib.Separator
import Fraisier.Ship.Version

/-!
# What a version bump changes

`bump_version` reads the first match of the version pattern and rewrites every match, whichever table
it stands in, and it writes the file with newlines for all line breaks. `bumpConfined_iff` says for
which files the bump changes the version alone: no carriage return stands outside of it, and every
further match already holds the new version. That the new version is read back afterwards
(`firstVersion_replace`) needs neither.
-/

namespace Fraisier.Ship

open Fraisier.Lib Str

/-! ## Matches -/

/-- What `version\s*=\s*"` matches. -/
def IsVersionKey (before : Str) : Prop :=
  ∃ a b, (∀ c ∈ a, isSpace c = true) ∧ (∀ c ∈ b, isSpace c = true) ∧
    before = "version".toList ++ a ++ '=' :: b ++ ['"']

/-- `_PYPROJECT_VERSION_RE.search`: what stands before the value of the first match, the value, and
what stands after its closing quote. -/
def firstVersion : Bool → Str → Option (Str × Str × Str)
  | _, [] => none
  | start, c :: s =>
    match if start then versionAt (c :: s) else none with
    | some (before, value) => some (before, value, s.drop (before.length + value.length))
    | none => (firstVersion (c = '\n') s).map fun m => (c :: m.1, m.2)

/-- The values of all matches, with the characters that are left of a match. -/
def versions : ℕ → Bool → Str → List Str
  | _, _, [] => []
  | k + 1, _, c :: s => versions k (c = '\n') s
  | 0, start, c :: s =>
    match if start then versionAt (c :: s) else none with
    | some (before, value) => value :: versions (before.length + value.length) (c = '\n') s
    | none => versions 0 (c = '\n') s

/-! ## The bump -/

/-- The two files differ in the version that is read of the first one alone. -/
def Confined (file new file' : Str) : Prop :=
  ∃ before value rest a v b, firstVersion true (readText file) = some (before, value, rest) ∧
    readText a = before ∧ readText v = value ∧ readText b = '"' :: rest ∧
    file = a ++ v ++ b ∧ file' = a ++ new ++ b

/-- A bump that returns has raised the version that is read, and changed nothing else. -/
def BumpConfined (part : BumpPart) (file : Str) : Prop :=
  ∀ file', bumpedText part file = some file' →
    ∃ current v new, pyprojectVersion file = some current ∧ parseSemver current = some v ∧
      semverText (part.next v) = some new ∧ pyprojectVersion file' = some new ∧
      Confined file new file'

/-- No carriage return stands outside the version, and every further match already holds the new
version. -/
def LoneVersion (file new : Str) : Prop :=
  (∃ before value rest v, firstVersion true (readText file) = some (before, value, rest) ∧
    readText v = value ∧ file = before ++ v ++ '"' :: rest) ∧
    ∀ other ∈ (versions 0 true (readText file)).tail, other = new

variable {s before value rest new w file file' : Str} {start : Bool} {part : BumpPart}

/-! ## One match -/

/-- What is no space is not among spaces. -/
theorem notMem_of_isSpace {a : Str} {d : Char} (hd : isSpace d = false)
    (h : ∀ c ∈ a, isSpace c = true) : d ∉ a := by
  intro hmem
  rw [h d hmem] at hd
  cases hd

/-- A match is a key, a value without a quote, and a quote. -/
theorem versionAt_iff : versionAt s = some (before, value) ↔
    IsVersionKey before ∧ value ≠ [] ∧ '"' ∉ value ∧ ∃ rest, s = before ++ value ++ '"' :: rest := by
  constructor
  · intro h
    obtain ⟨hquote, rest, hs⟩ := versionAt_spec h
    refine ⟨?_, ?_, hquote, rest, hs⟩
    -- The key and the quote before the value.
    · unfold versionAt at h
      split at h
      · cases h
      dsimp only at h
      split at h
      · rename_i afterEq hEq
        split at h
        · rename_i afterQuote hQuote
          split at h
          · cases h
          · split at h
            · cases h
            · obtain ⟨rfl, -⟩ := Prod.mk.inj (Option.some.inj h)
              exact ⟨(s.drop 7).takeWhile isSpace, afterEq.takeWhile isSpace,
                fun c hc => List.mem_takeWhile_imp hc, fun c hc => List.mem_takeWhile_imp hc,
                by simp only [List.append_assoc, List.singleton_append]⟩
        · cases h
      · cases h
    -- An empty value is no match.
    · rintro rfl
      unfold versionAt at h
      split at h
      · cases h
      dsimp only at h
      split at h
      · split at h
        · split at h
          · cases h
          · split at h
            · cases h
            · next hne => exact hne (Prod.mk.inj (Option.some.inj h)).2
        · cases h
      · cases h
  · rintro ⟨⟨a, b, ha, hb, rfl⟩, hne, hquote, rest, rfl⟩
    -- The text is taken apart at the places it was put together.
    have hvalue : ∀ c ∈ value, decide (c ≠ '"') = true := by
      intro c hc
      simpa using fun heq : c = '"' => hquote (heq ▸ hc)
    have hstart : startsWith ("version".toList ++ a ++ '=' :: b ++ ['"'] ++ value ++ '"' :: rest)
        "version".toList = true := by
      simp only [List.append_assoc]
      exact List.isPrefixOf_iff_prefix.mpr (List.prefix_append _ _)
    have hdrop : ("version".toList ++ a ++ '=' :: b ++ ['"'] ++ value ++ '"' :: rest).drop 7 =
        a ++ '=' :: (b ++ '"' :: (value ++ '"' :: rest)) := by
      simp only [List.append_assoc, List.cons_append, List.nil_append]
      exact List.drop_left' rfl
    have hequals : isSpace '=' = false := by decide
    have hopen : isSpace '"' = false := by decide
    have hclose : decide ('"' ≠ '"') = false := by decide
    unfold versionAt
    rw [hstart, if_neg (show ¬(!true) = true by decide)]
    simp only [hdrop, takeWhile_until ha hequals, dropWhile_until ha hequals,
      takeWhile_until hb hopen, dropWhile_until hb hopen, takeWhile_until hvalue hclose,
      dropWhile_until hvalue hclose, if_neg hne]
    simp only [List.append_assoc, List.cons_append, List.nil_append]

/-- A match ends its key at the first quote and its value at the second, so what stands for the value
and after it may be replaced. -/
theorem versionAt_replace {pre value' rest' : Str} (hne : value ≠ []) (hquote : '"' ∉ value)
    (h : versionAt (pre ++ ['"'] ++ value ++ '"' :: rest) = none) :
    versionAt (pre ++ ['"'] ++ value' ++ '"' :: rest') = none := by
  by_contra hsome
  obtain ⟨⟨key, w⟩, hw⟩ := Option.ne_none_iff_exists'.mp hsome
  obtain ⟨⟨a, b, ha, hb, rfl⟩, hwne, hwquote, t, ht⟩ := versionAt_iff.mp hw
  have hkey : '"' ∉ "version".toList ++ a ++ '=' :: b := by
    simp only [List.mem_append, List.mem_cons, not_or]
    exact ⟨⟨by decide, notMem_of_isSpace (by decide) ha⟩, by decide,
      notMem_of_isSpace (by decide) hb⟩
  obtain ⟨q, u, hpre, hq⟩ := List.eq_append_cons_of_mem
    (show '"' ∈ pre ++ ['"'] from List.mem_append_right _ List.mem_cons_self)
  rw [hpre] at ht h
  simp only [List.append_assoc, List.cons_append, List.nil_append] at ht h hkey
  obtain ⟨rfl, hafter⟩ := (append_cons_inj hq hkey).mp
    (show q ++ '"' :: _ = ("version".toList ++ (a ++ '=' :: b)) ++ '"' :: _ by
      simpa only [List.append_assoc, List.cons_append] using ht)
  have hisKey : IsVersionKey ("version".toList ++ (a ++ '=' :: b) ++ ['"']) :=
    ⟨a, b, ha, hb, by simp only [List.append_assoc, List.cons_append]⟩
  -- the second quote stands after the value, or before it already
  cases u using List.reverseRecOn with
  | nil =>
    refine Option.some_ne_none (_, value) ((versionAt_iff.mpr
      ⟨hisKey, hne, hquote, rest, ?_⟩).symm.trans h)
    simp only [List.append_assoc, List.cons_append, List.nil_append]
  | append_singleton u d =>
    have hd : d = '"' := by
      have hlast := congrArg List.getLast? hpre
      rw [← List.cons_append, ← List.append_assoc, List.getLast?_concat, List.getLast?_concat] at hlast
      exact (Option.some.inj hlast).symm
    subst hd
    obtain ⟨x, y, hu, hx⟩ := List.eq_append_cons_of_mem
      (show '"' ∈ u ++ ['"'] from List.mem_append_right _ List.mem_cons_self)
    rw [hu] at hafter h
    simp only [List.append_assoc, List.cons_append] at hafter h
    obtain ⟨rfl, -⟩ := (append_cons_inj hx hwquote).mp hafter
    refine Option.some_ne_none (_, x) ((versionAt_iff.mpr
      ⟨hisKey, hwne, hx, y ++ (value ++ '"' :: rest), ?_⟩).symm.trans h)
    simp only [List.append_assoc, List.cons_append, List.nil_append]

/-- What is left of the text after a match. -/
theorem drop_match {c : Char} (h : c :: s = before ++ value ++ '"' :: rest) :
    s.drop (before.length + value.length) = rest := by
  have hdrop := congrArg (List.drop (before ++ value ++ ['"']).length) h
  rw [List.append_cons _ '"' rest, List.drop_left, List.length_append, List.length_append] at hdrop
  exact hdrop

/-! ## The first match -/

/-- The search finds the first match. -/
theorem firstVersion_spec (h : firstVersion start s = some (before, value, rest)) :
    (∃ pre, before = pre ++ ['"']) ∧ value ≠ [] ∧ '"' ∉ value ∧ s = before ++ value ++ '"' :: rest ∧
      searchVersion start s = some value := by
  -- Induction on the text: a match begins here, or further on.
  induction s generalizing start before with
  | nil => cases h
  | cons c s ih =>
    unfold firstVersion at h
    unfold searchVersion
    cases hmatch : (if start then versionAt (c :: s) else none) with
    | some m =>
      simp only [hmatch, Option.some.injEq, Prod.mk.injEq] at h ⊢
      obtain ⟨rfl, rfl, rfl⟩ := h
      obtain ⟨⟨a, b, -, -, hkey⟩, hne, hquote, rest, hs⟩ :=
        versionAt_iff.mp (Option.ite_none_right_eq_some.mp hmatch).2
      exact ⟨⟨_, hkey⟩, hne, hquote, by rw [drop_match hs, ← hs], rfl⟩
    | none =>
      simp only [hmatch] at h ⊢
      obtain ⟨⟨before', value', rest'⟩, hfirst, heq⟩ := Option.map_eq_some_iff.mp h
      obtain ⟨rfl, rfl, rfl⟩ : c :: before' = before ∧ value' = value ∧ rest' = rest := by
        simpa only [Option.some.injEq, Prod.mk.injEq] using heq
      obtain ⟨⟨pre, rfl⟩, hne, hquote, hs, hsearch⟩ := ih hfirst
      exact ⟨⟨c :: pre, rfl⟩, hne, hquote, congrArg (c :: ·) hs, hsearch⟩

/-- What is read has a first match. -/
theorem firstVersion_of_search (h : searchVersion start s = some value) :
    ∃ before rest, firstVersion start s = some (before, value, rest) := by
  induction s generalizing start with
  | nil => cases h
  | cons c s ih =>
    unfold searchVersion at h
    unfold firstVersion
    cases hmatch : (if start then versionAt (c :: s) else none) with
    | some m =>
      simp only [hmatch, Option.some.injEq] at h
      exact ⟨m.1, _, by rw [← h]⟩
    | none =>
      simp only [hmatch] at h
      obtain ⟨before, rest, hfirst⟩ := ih h
      exact ⟨c :: before, rest, by rw [hfirst]; rfl⟩

/-- Another value in the place of the first is found first. -/
theorem firstVersion_replace {rest'' : Str} (hnew : new ≠ []) (hquote : '"' ∉ new)
    (h : firstVersion start s = some (before, value, rest)) :
    firstVersion start (before ++ new ++ '"' :: rest'') = some (before, new, rest'') := by
  -- Induction on the text: the first match is here, or later.
  induction s generalizing start before with
  | nil => cases h
  | cons c s ih =>
    obtain ⟨⟨pre, hpre⟩, hne, hquote', hs, -⟩ := firstVersion_spec h
    unfold firstVersion at h
    cases hmatch : (if start then versionAt (c :: s) else none) with
    | some m =>
      obtain ⟨hstart, hversion⟩ := Option.ite_none_right_eq_some.mp hmatch
      simp only [hmatch, Option.some.injEq, Prod.mk.injEq] at h
      obtain ⟨rfl, rfl, -⟩ := h
      have hnew' : versionAt (m.1 ++ new ++ '"' :: rest'') = some (m.1, new) :=
        versionAt_iff.mpr ⟨(versionAt_iff.mp hversion).1, hnew, hquote, rest'', rfl⟩
      obtain ⟨d, t, ht⟩ : ∃ d t, m.1 ++ new ++ '"' :: rest'' = d :: t := by
        rw [hpre]
        exact List.exists_cons_of_ne_nil (by simp)
      rw [ht] at hnew'
      rw [ht, firstVersion, if_pos hstart, hnew']
      simp only [drop_match ht.symm]
    | none =>
      simp only [hmatch] at h
      obtain ⟨⟨before', value', rest'⟩, hfirst, heq⟩ := Option.map_eq_some_iff.mp h
      obtain ⟨rfl, rfl, rfl⟩ : c :: before' = before ∧ value' = value ∧ rest' = rest := by
        simpa only [Option.some.injEq, Prod.mk.injEq] using heq
      rw [List.cons_append, List.cons_append, firstVersion, ih hfirst]
      cases start with
      | false => rfl
      | true =>
        rw [if_pos rfl] at hmatch
        have hnone : versionAt (pre ++ ['"'] ++ new ++ '"' :: rest'') = none :=
          versionAt_replace hne hquote' (by rw [← hpre, ← hs]; exact hmatch)
        rw [← hpre, List.cons_append, List.cons_append] at hnone
        rw [if_pos rfl, hnone]
        rfl

/-- The substitution changes nothing exactly when every value is the new one already. -/
theorem substVersion_eq_iff {k : ℕ} (hquote : '"' ∉ new) :
    substVersion new k start s = s.drop k ↔ ∀ other ∈ versions k start s, other = new := by
  -- Induction on the text; what is inside a match is passed over.
  induction s generalizing k start with
  | nil => simp [substVersion, versions]
  | cons c s ih =>
    cases k with
    | succ k => simpa only [substVersion, versions, List.drop_succ_cons] using ih
    | zero =>
      unfold substVersion versions
      rw [List.drop_zero]
      cases hmatch : (if start then versionAt (c :: s) else none) with
      | none => simpa only [List.cons.injEq, true_and, List.drop_zero] using ih (k := 0)
      | some m =>
        obtain ⟨-, -, hquote', rest, hs⟩ :=
          versionAt_iff.mp (Option.ite_none_right_eq_some.mp hmatch).2
        have ih' : substVersion new (m.1.length + m.2.length) (c = '\n') s = _ ↔ _ := ih
        rw [drop_match hs] at ih'
        rw [List.forall_mem_cons, ← ih', hs]
        simp only [List.append_assoc, List.singleton_append, List.append_cancel_left_eq]
        rw [append_cons_inj hquote hquote', eq_comm (a := new)]

/-- The substitution replaces the first value, and leaves what stands after it when every further
value is the new one already. -/
theorem substVersion_first (hquote : '"' ∉ new)
    (h : firstVersion start s = some (before, value, rest)) :
    ∃ rest', substVersion new 0 start s = before ++ new ++ '"' :: rest' ∧
      (rest' = rest ↔ ∀ other ∈ (versions 0 start s).tail, other = new) := by
  -- Induction on the text, up to the first match.
  induction s generalizing start before with
  | nil => cases h
  | cons c s ih =>
    unfold firstVersion at h
    unfold substVersion versions
    cases hmatch : (if start then versionAt (c :: s) else none) with
    | some m =>
      simp only [hmatch, Option.some.injEq, Prod.mk.injEq] at h
      obtain ⟨rfl, rfl, rfl⟩ := h
      refine ⟨_, by rw [List.append_cons _ '"'], ?_⟩
      rw [List.tail_cons]
      exact substVersion_eq_iff hquote
    | none =>
      simp only [hmatch] at h
      obtain ⟨⟨before', value', rest'⟩, hfirst, heq⟩ := Option.map_eq_some_iff.mp h
      obtain ⟨rfl, rfl, rfl⟩ : c :: before' = before ∧ value' = value ∧ rest' = rest := by
        simpa only [Option.some.injEq, Prod.mk.injEq] using heq
      obtain ⟨rest'', hsubst, hiff⟩ := ih hfirst
      exact ⟨rest'', congrArg (c :: ·) hsubst, hiff⟩

/-! ## The file -/

/-- A version's text is not empty. -/
theorem semverText_ne_nil {v : ℕ × ℕ × ℕ} (h : semverText v = some s) : s ≠ [] := by
  rintro rfl
  have hparse := (parseSemver_semverText h).1
  rw [show parseSemver [] = none by decide] at hparse
  cases hparse

/-- A file without carriage returns outside the version is read as its parts are. -/
theorem confined_iff (hfile' : '\r' ∉ file') : Confined file new file' ↔
    ∃ before value rest v, firstVersion true (readText file) = some (before, value, rest) ∧
      readText v = value ∧ file = before ++ v ++ '"' :: rest ∧
      file' = before ++ new ++ '"' :: rest := by
  constructor
  -- Reading changes carriage returns only.
  · rintro ⟨before, value, rest, a, v, b, hfirst, ha, hv, hb, rfl, rfl⟩
    have hnot : '\r' ∉ a ∧ '\r' ∉ b := by
      simp only [List.mem_append, not_or] at hfile'
      exact ⟨hfile'.1.1, hfile'.2⟩
    rw [(readText_eq a).2 hnot.1] at ha
    rw [(readText_eq b).2 hnot.2] at hb
    subst ha hb
    exact ⟨a, value, rest, v, hfirst, hv, rfl, rfl⟩
  · rintro ⟨before, value, rest, v, hfirst, hv, rfl, rfl⟩
    have hnot : '\r' ∉ before ∧ '\r' ∉ '"' :: rest := by
      simp only [List.mem_append, not_or] at hfile'
      exact ⟨hfile'.1.1, hfile'.2⟩
    exact ⟨before, value, rest, before, v, '"' :: rest, hfirst, (readText_eq before).2 hnot.1, hv,
      (readText_eq _).2 hnot.2, rfl, rfl⟩

/-- What is written when the version can be raised. -/
theorem bumpedText_eq {current : Str} {v : ℕ × ℕ × ℕ} (hcurrent : pyprojectVersion file = some current)
    (hv : parseSemver current = some v) (hnew : semverText (part.next v) = some new) :
    bumpedText part file = some (substVersion new 0 true (readText file)) ∧
      '\r' ∉ substVersion new 0 true (readText file) := by
  refine ⟨by simp only [bumpedText, hcurrent, hv, hnew, Option.bind_eq_bind, Option.bind_some],
    fun hmem => ?_⟩
  obtain hmem | hmem | hmem := mem_substVersion hmem
  · exact (readText_eq file).1 hmem
  · exact (parseSemver_semverText hnew).2.2 hmem
  · cases hmem

/-- A bump that changes the version alone has found no other line to change. -/
theorem BumpConfined.loneVersion (h : BumpConfined part file) {current : Str} {v : ℕ × ℕ × ℕ}
    (hcurrent : pyprojectVersion file = some current) (hv : parseSemver current = some v)
    (hnew : semverText (part.next v) = some new) : LoneVersion file new := by
  obtain ⟨hbump, hreturn⟩ := bumpedText_eq hcurrent hv hnew
  obtain ⟨current', v', new', hcurrent', hv', hnew', -, hconfined⟩ := h _ hbump
  obtain rfl : current = current' := Option.some.inj (hcurrent.symm.trans hcurrent')
  obtain rfl : v = v' := Option.some.inj (hv.symm.trans hv')
  obtain rfl : new = new' := Option.some.inj (hnew.symm.trans hnew')
  obtain ⟨before, value, rest, w, hfirst, hw, hfile, hfile'⟩ := (confined_iff hreturn).mp hconfined
  obtain ⟨rest', hsubst, hiff⟩ := substVersion_first (parseSemver_semverText hnew).2.1 hfirst
  refine ⟨⟨before, value, rest, w, hfirst, hw, hfile⟩, hiff.mp ?_⟩
  exact (List.cons.inj (List.append_cancel_left (hsubst.symm.trans hfile'))).2

/-- The version that is written is the one that is read afterwards. -/
theorem pyprojectVersion_bumped {file' : Str} (hbump : bumpedText part file = some file') :
    ∃ current v new, pyprojectVersion file = some current ∧ parseSemver current = some v ∧
      semverText (part.next v) = some new ∧ pyprojectVersion file' = some new := by
  obtain ⟨current, hcurrent, hrest⟩ := Option.bind_eq_some_iff.mp hbump
  obtain ⟨v, hv, hrest⟩ := Option.bind_eq_some_iff.mp hrest
  obtain ⟨new, hnew, -⟩ := Option.bind_eq_some_iff.mp hrest
  obtain ⟨hbump', hreturn⟩ := bumpedText_eq hcurrent hv hnew
  have hquote := (parseSemver_semverText hnew).2.1
  obtain ⟨before, rest, hfirst⟩ := firstVersion_of_search hcurrent
  obtain ⟨rest', hsubst, -⟩ := substVersion_first hquote hfirst
  obtain rfl : file' = substVersion new 0 true (readText file) :=
    Option.some.inj (hbump.symm.trans hbump')
  refine ⟨current, v, new, hcurrent, hv, hnew, ?_⟩
  rw [pyprojectVersion, (readText_eq _).2 hreturn, hsubst]
  exact (firstVersion_spec (firstVersion_replace (semverText_ne_nil hnew) hquote hfirst)).2.2.2.2

/-- A bump changes the version alone exactly when no carriage return stands outside of it and every
further match already holds the new version. -/
theorem bumpConfined_iff (part : BumpPart) (file : Str) : BumpConfined part file ↔
    ∀ current v new, pyprojectVersion file = some current → parseSemver current = some v →
      semverText (part.next v) = some new → LoneVersion file new := by
  constructor
  · intro h current v new hcurrent hv hnew
    exact h.loneVersion hcurrent hv hnew
  · intro h file' hbump
    obtain ⟨current, v, new, hcurrent, hv, hnew, hread⟩ := pyprojectVersion_bumped hbump
    obtain ⟨hbump', hreturn⟩ := bumpedText_eq hcurrent hv hnew
    obtain ⟨⟨before, value, rest, w, hfirst, hw, hfile⟩, hothers⟩ := h current v new hcurrent hv hnew
    obtain ⟨rest', hsubst, hiff⟩ := substVersion_first (parseSemver_semverText hnew).2.1 hfirst
    -- the other lines hold the new version, so that nothing after the first is changed
    obtain rfl := hiff.mpr hothers
    obtain rfl := Option.some.inj (hbump.symm.trans hbump')
    exact ⟨current, v, new, hcurrent, hv, hnew, hread,
      (confined_iff hreturn).mpr ⟨before, value, rest', w, hfirst, hw, hfile, hsubst⟩⟩

/-- The version line of another table is raised as well. -/
theorem otherVersion_raised : ¬BumpConfined .minor
    "[project]\nversion = \"1.2.3\"\n[tool.x]\nversion = \"0.9.0\"\n".toList := by
  intro h
  obtain ⟨-, hothers⟩ := h.loneVersion (show _ = some "1.2.3".toList by decide)
    (show _ = some (1, 2, 3) by decide) (show _ = some "1.3.0".toList by decide)
  exact absurd (hothers "0.9.0".toList (by decide)) (by decide)

end Fraisier.Ship
