import Fraisier.Lib.Decimal
import Fraisier.Lib.Separator

/-!
# The version line

`versioning.py` keeps the version of a project in the `version = "…"` line of `pyproject.toml`.
`bump_version` raises it and writes the file anew. `bumpedText_ne`: the file that it writes is never
the one that it read.
-/

namespace Fraisier.Ship

open Fraisier.Lib Str

/-! ## The pattern -/

/-- `version\s*=\s*"([^"]+)"` at the start of a text: what stands before the value, and the
value. -/
def versionAt (s : Str) : Option (Str × Str) :=
  if !s.startsWith "version".toList then none
  else
    let blanks := (s.drop 7).takeWhile isSpace
    match (s.drop 7).dropWhile isSpace with
    | '=' :: rest =>
      match rest.dropWhile isSpace with
      | '"' :: rest' =>
        match rest'.dropWhile (· ≠ '"') with
        | [] => none
        | _ :: _ =>
          let value := rest'.takeWhile (· ≠ '"')
          if value = [] then none
          else some ("version".toList ++ blanks ++ ['='] ++ rest.takeWhile isSpace ++ ['"'], value)
      | _ => none
    | _ => none

/-- `_PYPROJECT_VERSION_RE.search`: the value of the first line that matches. The flag says that a
line starts here. -/
def searchVersion : Bool → Str → Option Str
  | _, [] => none
  | start, c :: s =>
    match if start then versionAt (c :: s) else none with
    | some (_, value) => some value
    | none => searchVersion (c = '\n') s

/-- `_PYPROJECT_VERSION_RE.sub`, with the characters that are left of a match. -/
def substVersion (new : Str) : ℕ → Bool → Str → Str
  | _, _, [] => []
  | k + 1, _, c :: s => substVersion new k (c = '\n') s
  | 0, start, c :: s =>
    match if start then versionAt (c :: s) else none with
    | some (before, value) =>
      before ++ new ++ ['"'] ++ substVersion new (before.length + value.length) (c = '\n') s
    | none => c :: substVersion new 0 (c = '\n') s

/-! ## Versions -/

/-- `parse_semver`: `^(\d+)\.(\d+)\.(\d+)$`, and the numbers. A newline may stand at the end. -/
def parseSemver (v : Str) : Option (ℕ × ℕ × ℕ) :=
  let v := if v.getLast? = some '\n' then v.dropLast else v
  match v.splitOn '.' with
  | [major, minor, patch] =>
    if [major, minor, patch].all fun n => n ≠ [] && n.all fun c => (decimal? c).isSome then
      match toInt major, toInt minor, toInt patch with
      | some a, some b, some c => some (a, b, c)
      | _, _, _ => none
    else none
  | _ => none

/-- `f"{major}.{minor}.{patch}"`. -/
def semverText (v : ℕ × ℕ × ℕ) : Option Str := do
  let major ← intText v.1
  let minor ← intText v.2.1
  let patch ← intText v.2.2
  some (major ++ ['.'] ++ minor ++ ['.'] ++ patch)

/-- The part of the version that is raised. -/
inductive BumpPart
  | major | minor | patch
  deriving DecidableEq, Repr

/-- The next version. -/
def BumpPart.next : BumpPart → ℕ × ℕ × ℕ → ℕ × ℕ × ℕ
  | .major, (a, _, _) => (a + 1, 0, 0)
  | .minor, (a, b, _) => (a, b + 1, 0)
  | .patch, (a, b, c) => (a, b, c + 1)

/-- `Path.read_text` turns every kind of line break into a newline. -/
def readText : Str → Str
  | '\r' :: '\n' :: s => '\n' :: readText s
  | c :: s => (if c = '\r' then '\n' else c) :: readText s
  | [] => []

/-- `read_pyproject_version` of a file that is there. -/
def pyprojectVersion (file : Str) : Option Str := searchVersion true (readText file)

/-- The file that `bump_version` writes, or `none` when it raises `ValueError`. -/
def bumpedText (part : BumpPart) (file : Str) : Option Str := do
  let current ← pyprojectVersion file
  let new ← semverText (part.next (← parseSemver current))
  some (substVersion new 0 true (readText file))

example : bumpedText .minor "[project]\nversion = \"1.2.3\"\n".toList =
    some "[project]\nversion = \"1.3.0\"\n".toList := by decide

/-! ## What the bump changes -/

/-- A match, and what stands after it. -/
theorem versionAt_spec {s before value : Str} (h : versionAt s = some (before, value)) :
    '"' ∉ value ∧ ∃ rest, s = before ++ value ++ '"' :: rest := by
  unfold versionAt at h
  split at h
  · cases h
  rename_i hstart
  have hs : s = "version".toList ++ s.drop 7 :=
    (List.prefix_iff_eq_append.mp (List.isPrefixOf_iff_prefix.mp (by simpa [startsWith] using hstart))).symm
  dsimp only at h
  split at h
  · rename_i afterEq hEq
    split at h
    · rename_i afterQuote hQuote
      split at h
      · cases h
      · rename_i close rest hClose
        split at h
        · cases h
        · obtain ⟨rfl, rfl⟩ := Prod.mk.inj (Option.some.inj h)
          -- the value ends at the first quote
          have hclose : close = '"' := by
            have hne : afterQuote.dropWhile (· ≠ '"') ≠ [] := by
              rw [hClose]
              exact List.cons_ne_nil _ _
            have hhead := List.head_dropWhile_not (· ≠ '"') hne
            rw [show (afterQuote.dropWhile (· ≠ '"')).head hne = close by simp only [hClose, List.head_cons]]
              at hhead
            simpa using hhead
          subst hclose
          refine ⟨fun hmem => by simpa using List.mem_takeWhile_imp hmem, rest, ?_⟩
          calc s = "version".toList ++ s.drop 7 := hs
            _ = "version".toList ++ ((s.drop 7).takeWhile isSpace ++ '=' :: afterEq) := by
              rw [← hEq, List.takeWhile_append_dropWhile]
            _ = "version".toList ++ ((s.drop 7).takeWhile isSpace ++
                  '=' :: (afterEq.takeWhile isSpace ++ '"' :: afterQuote)) := by
              rw [← hQuote, List.takeWhile_append_dropWhile]
            _ = "version".toList ++ ((s.drop 7).takeWhile isSpace ++
                  '=' :: (afterEq.takeWhile isSpace ++
                    '"' :: (afterQuote.takeWhile (· ≠ '"') ++ '"' :: rest))) := by
              rw [← hClose, List.takeWhile_append_dropWhile]
            _ = _ := by simp only [List.append_assoc, List.cons_append, List.nil_append]
    · cases h
  · cases h

/-- What the search finds first is what is replaced first. -/
theorem substVersion_spec {start : Bool} {s value : Str} (h : searchVersion start s = some value)
    (new : Str) : '"' ∉ value ∧ ∃ before rest rest', s = before ++ value ++ '"' :: rest ∧
      substVersion new 0 start s = before ++ new ++ '"' :: rest' := by
  -- Induction on the text, up to the first match.
  induction s generalizing start with
  | nil => cases h
  | cons c s ih =>
    rw [searchVersion] at h
    rw [substVersion]
    split at h
    · rename_i before value' hmatch
      obtain rfl := Option.some.inj h
      obtain ⟨hquote, rest, hs⟩ := versionAt_spec (Option.ite_none_right_eq_some.mp hmatch).2
      exact ⟨hquote, before, rest, _, hs, by simp only [List.append_assoc, List.singleton_append]; rfl⟩
    · rename_i hmatch
      obtain ⟨hquote, before, rest, rest', hs, hsub⟩ := ih h
      exact ⟨hquote, c :: before, rest, rest', congrArg (c :: ·) hs, congrArg (c :: ·) hsub⟩

/-- What is written stands in the file that was read, in the new version, or is a quote. -/
theorem mem_substVersion {new s : Str} {k : ℕ} {start : Bool} {d : Char}
    (h : d ∈ substVersion new k start s) : d ∈ s ∨ d ∈ new ∨ d = '"' := by
  -- Induction on the text, with the characters still to be skipped.
  induction s generalizing k start with
  | nil => cases h
  | cons c s ih =>
    cases k with
    | succ k =>
      rw [substVersion] at h
      exact (ih h).imp_left (List.mem_cons_of_mem c)
    | zero =>
      rw [substVersion] at h
      split at h
      · rename_i before value hmatch
        obtain ⟨-, rest, hs⟩ := versionAt_spec (Option.ite_none_right_eq_some.mp hmatch).2
        rw [hs]
        simp only [List.mem_append, List.mem_cons, List.not_mem_nil, or_false] at h
        obtain ((h | h) | h) | h := h
        · exact .inl (by simp [h])
        · exact .inr (.inl h)
        · exact .inr (.inr h)
        · rw [← hs]
          exact (ih h).imp_left (List.mem_cons_of_mem c)
      · obtain rfl | h := List.mem_cons.mp h
        · exact .inl List.mem_cons_self
        · exact (ih h).imp_left (List.mem_cons_of_mem c)

/-- A text read has no carriage return, and a text without one is read as it is. -/
theorem readText_eq (s : Str) : '\r' ∉ readText s ∧ ('\r' ∉ s → readText s = s) := by
  -- The cases are those of the reading: a pair is one newline.
  induction s using readText.induct with
  | case1 s ih =>
    rw [readText]
    exact ⟨List.not_mem_cons_of_ne_of_not_mem (by decide) ih.1, fun h => (h List.mem_cons_self).elim⟩
  | case2 c s hc ih =>
    rw [readText]
    · have hne : '\r' ≠ if c = '\r' then '\n' else c := by
        split
        · decide
        · exact Ne.symm ‹_›
      refine ⟨List.not_mem_cons_of_ne_of_not_mem hne ih.1, fun h => ?_⟩
      rw [ih.2 fun hmem => h (List.mem_cons_of_mem c hmem), if_neg]
      rintro rfl
      exact h List.mem_cons_self
    · exact hc
  | case3 => exact ⟨List.not_mem_nil, fun _ => rfl⟩

/-- The version that is written is read as itself. -/
theorem parseSemver_semverText {v : ℕ × ℕ × ℕ} {s : Str} (h : semverText v = some s) :
    parseSemver s = some v ∧ '"' ∉ s ∧ '\r' ∉ s := by
  obtain ⟨a, b, c⟩ := v
  obtain ⟨major, hmajor, h⟩ := Option.bind_eq_some_iff.mp h
  obtain ⟨minor, hminor, h⟩ := Option.bind_eq_some_iff.mp h
  obtain ⟨patch, hpatch, h⟩ := Option.bind_eq_some_iff.mp h
  obtain rfl := Option.some.inj h
  obtain ⟨ha, hane, hadigits⟩ := intText_spec hmajor
  obtain ⟨hb, hbne, hbdigits⟩ := intText_spec hminor
  obtain ⟨hc, hcne, hcdigits⟩ := intText_spec hpatch
  -- Digits hold no dot, quote or line end.
  have hno : ∀ (d : Char) (s : Str), d.isDigit = false → (∀ c ∈ s, c.isDigit = true) → d ∉ s :=
    fun d s hd hs hmem => by simp [hs d hmem] at hd
  -- The text splits into the three numbers.
  have hsplit : (major ++ ['.'] ++ minor ++ ['.'] ++ patch).splitOn '.' = [major, minor, patch] := by
    rw [List.append_assoc, List.append_assoc, List.append_assoc, List.singleton_append,
      List.splitOn_append_cons_self_of_not_mem (hno '.' _ rfl hadigits), List.singleton_append,
      List.splitOn_append_cons_self_of_not_mem (hno '.' _ rfl hbdigits),
      List.splitOn_eq_singleton (hno '.' _ rfl hcdigits)]
  have hlast : (major ++ ['.'] ++ minor ++ ['.'] ++ patch).getLast? ≠ some '\n' := by
    rw [List.getLast?_append_of_ne_nil _ hcne]
    intro hlast
    exact hno '\n' _ rfl hcdigits (List.mem_of_getLast? hlast)
  have hdigits : ([major, minor, patch].all fun n =>
      n ≠ [] && n.all fun c => (decimal? c).isSome) = true := by
    have hall : ∀ s : Str, (∀ c ∈ s, c.isDigit = true) → (s.all fun c => (decimal? c).isSome) = true :=
      fun s hs => List.all_eq_true.mpr fun c hc => by rw [decimal?_of_isDigit (hs c hc)]; rfl
    simp [hane, hbne, hcne, hall _ hadigits, hall _ hbdigits, hall _ hcdigits]
  refine ⟨?_, ?_, ?_⟩
  · rw [parseSemver, if_neg hlast]
    simp only [hsplit, hdigits, ha, hb, hc, if_true]
  · simp [hno '"' _ rfl hadigits, hno '"' _ rfl hbdigits, hno '"' _ rfl hcdigits]
  · simp [hno '\r' _ rfl hadigits, hno '\r' _ rfl hbdigits, hno '\r' _ rfl hcdigits]

/-- A bump changes the version. -/
theorem BumpPart.next_ne (part : BumpPart) (v : ℕ × ℕ × ℕ) : part.next v ≠ v := by
  obtain ⟨a, b, c⟩ := v
  cases part <;> simp [BumpPart.next]

/-- The bump changes the file. -/
theorem bumpedText_ne {part : BumpPart} {file file' : Str} (h : bumpedText part file = some file') :
    file' ≠ file := by
  rintro rfl
  obtain ⟨current, hcurrent, h⟩ := Option.bind_eq_some_iff.mp h
  obtain ⟨v, hv, h⟩ := Option.bind_eq_some_iff.mp h
  obtain ⟨new, hnew, h⟩ := Option.bind_eq_some_iff.mp h
  have hfile : substVersion new 0 true (readText file') = file' := Option.some.inj h
  obtain ⟨hparse, hquote, hreturn⟩ := parseSemver_semverText hnew
  -- what was written has no carriage return, so it was read as it is
  have hread : readText file' = file' := by
    refine (readText_eq file').2 fun hmem => ?_
    rw [← hfile] at hmem
    obtain hmem | hmem | hmem := mem_substVersion hmem
    · exact (readText_eq file').1 hmem
    · exact hreturn hmem
    · cases hmem
  obtain ⟨hquote', before, rest, rest', hs, hsub⟩ := substVersion_spec hcurrent new
  have hsame : current ++ '"' :: rest = new ++ '"' :: rest' := by
    have hboth := hs.symm.trans ((hread.trans hfile.symm).trans hsub)
    rw [List.append_assoc, List.append_assoc] at hboth
    exact List.append_cancel_left hboth
  have hcurrent' : current = new := ((append_cons_inj hquote' hquote).mp hsame).1
  rw [hcurrent', hparse] at hv
  exact part.next_ne v (Option.some.inj hv)

end Fraisier.Ship
