import Fraisier.Lib.CommandLine
import Fraisier.Unit.Reading

/-!
# The commands of a unit

`_exec_refusal` judges a value by its first word, which it takes as a shell does. systemd runs every
command of the value, and decodes the escapes of C in their words. What goes unjudged is a command
after a lone `;`, and a first word that is written with a backslash (`unjudged`). `execsGranted_iff`
says that a unit that is not refused runs only granted commands exactly when the unjudged ones happen
to be granted.
-/

namespace Fraisier.Unit

open Fraisier.Lib Str CommandLine

/-! ## What systemd runs -/

/-- A prefix character of `_EXEC_PREFIX_CHARS`. -/
def isExecPrefix (c : Char) : Bool := execPrefixChars.contains c

/-- The commands that systemd takes out of a value. -/
def systemdCommands (value : Str) : List Command := ofValue isExecPrefix value

/-- The command has no prefixes but harmless ones, and the policy grants its executable. -/
def Granted (policy : RootPolicy) (c : Command) : Prop :=
  (∀ p ∈ c.prefixes, p ∈ harmlessExecPrefixes) ∧
    granted policy.execPrefixes c.executable.normpath = true

/-- The values of the `Exec` directives of a unit. -/
def execValues (text : Str) : List Str :=
  ((unitDirectives text).filter fun a => isOneOf execKeys a.2.1).map (·.2.2)

/-- Every command that systemd runs for the unit is granted. -/
def ExecsGranted (policy : RootPolicy) (text : Str) : Prop :=
  ∀ value ∈ execValues text, ∀ c ∈ systemdCommands value, Granted policy c

/-- The commands of a value that are never judged: all of them where the first word is written with a
backslash, and else all but the first. -/
def unjudged (value : Str) : List Command :=
  if '\\' ∈ written none value then systemdCommands value else (systemdCommands value).tail

/-- The value holds one command, of which the first word is written without a backslash. -/
def OneCommand (value : Str) : Prop :=
  Item.separator ∉ items .blank 0 [] value ∧ '\\' ∉ written none value

/-- One command leaves nothing unjudged. -/
theorem unjudged_of_oneCommand {value : Str} (h : OneCommand value) : unjudged value = [] := by
  rw [unjudged, if_neg h.2]
  exact commands_tail h.1

/-! ## What the validator judges -/

variable {value key : Str} {policy : RootPolicy}

/-- A prefix of a command is a plain character. -/
theorem isPlain_of_isExecPrefix {c : Char} (h : isExecPrefix c = true) : IsPlain c := by
  have hall : execPrefixChars.all (fun c => !Shlex.isBlank c && c != ';' && c != '\\' &&
      !Shlex.isQuote c) = true := by decide
  have hc := List.all_eq_true.mp hall c (List.contains_iff_mem.mp h)
  simpa [IsPlain, and_assoc] using hc

/-- A value that is not refused: harmless prefixes, and a command whose first word is granted. -/
theorem execRefusal_none (h : execRefusal value policy key = none) (hne : value ≠ []) :
    (∀ p ∈ value.takeWhile isExecPrefix, p ∈ harmlessExecPrefixes) ∧
      ∃ executable args, Shlex.split (value.dropWhile isExecPrefix) = .ok (executable :: args) ∧
        executable.isAbs = true ∧ executable.normpath = executable ∧
        granted policy.execPrefixes executable = true := by
  have hprefix : (fun c => execPrefixChars.contains c) = isExecPrefix := rfl
  unfold execRefusal at h
  rw [if_neg hne, hprefix] at h
  dsimp only at h
  -- The prefixes have to be harmless, and the rest has to split.
  by_cases hharmless : (value.takeWhile isExecPrefix).all (harmlessExecPrefixes.contains ·) = true
  · rw [hharmless, Bool.not_true, if_neg Bool.false_ne_true] at h
    have hprefixes : ∀ p ∈ value.takeWhile isExecPrefix, p ∈ harmlessExecPrefixes :=
      fun p hp => List.contains_iff_mem.mp (List.all_eq_true.mp hharmless p hp)
    cases hsplit : Shlex.split (value.dropWhile isExecPrefix) with
    | error e => simp [hsplit] at h
    | ok argv => cases argv with
      | nil => simp [hsplit] at h
      | cons executable args =>
        simp only [hsplit] at h
        split_ifs at h with hpath hgranted
        simp only [Bool.or_eq_true, not_or, Bool.not_eq_true', Bool.not_eq_false, decide_eq_true_eq,
          not_not] at hpath
        exact ⟨hprefixes, executable, args, rfl, hpath.1.1.1, hpath.2, hgranted⟩
  · rw [Bool.not_eq_true] at hharmless
    rw [hharmless, Bool.not_false, if_pos rfl] at h
    exact absurd h (by simp)

/-- A command that the validator judged. -/
theorem judged_granted (h : execRefusal value policy key = none)
    (hhead : ∀ c r, value = c :: r → Shlex.isBlank c = false) (hwritten : '\\' ∉ written none value)
    {c : Command} (hc : (systemdCommands value).head? = some c) : Granted policy c := by
  by_cases hne : value = []
  · subst hne
    exact absurd hc (by simp [systemdCommands, ofValue, items, commands, command])
  obtain ⟨hharmless, executable, args, hsplit, habs, hnorm, hgranted⟩ := execRefusal_none h hne
  have hvalue : value.takeWhile isExecPrefix ++ value.dropWhile isExecPrefix = value :=
    List.takeWhile_append_dropWhile
  obtain ⟨r, hslash⟩ := List.head?_eq_some_iff.mp (beq_iff_eq.mp habs)
  have hsemicolon : executable ≠ [';'] := by
    rw [hslash]
    simp
  have hplain : ∀ c ∈ value.takeWhile isExecPrefix, IsPlain c :=
    fun c hc => isPlain_of_isExecPrefix (List.mem_takeWhile_imp hc)
  rw [← hvalue] at hhead hwritten
  obtain ⟨w, rest, hitems, hw⟩ := firstWord_eq hplain hhead hwritten hsplit hsemicolon
  rw [hvalue] at hitems
  rw [systemdCommands, ofValue, hitems, commands, List.nil_append] at hc
  obtain ⟨hprefixes, hexecutable, hnil⟩ := commands_head hc
  -- what stands before the first word of the shell is all prefixes, and the slash is none
  have hall : ∀ c ∈ value.takeWhile isExecPrefix, isExecPrefix c = true :=
    fun c => List.mem_takeWhile_imp
  rcases hw with rfl | rfl
  · rw [List.dropWhile_eq_nil_iff.mpr hall] at hexecutable
    exact absurd hexecutable hnil
  · have hstop : ¬isExecPrefix '/' = true := by decide
    rw [hslash, List.takeWhile_append_of_pos hall, List.takeWhile_cons_of_neg hstop,
      List.append_nil] at hprefixes
    rw [hslash, List.dropWhile_append_of_pos hall, List.dropWhile_cons_of_neg hstop,
      ← hslash] at hexecutable
    refine ⟨?_, ?_⟩
    · rw [hprefixes]
      exact hharmless
    · rw [hexecutable, hnorm]
      exact hgranted

/-- The commands of a value that is not refused are granted exactly when those are that were not
judged. -/
theorem commands_granted_iff (h : execRefusal value policy key = none)
    (hhead : ∀ c r, value = c :: r → Shlex.isBlank c = false) :
    (∀ c ∈ systemdCommands value, Granted policy c) ↔ ∀ c ∈ unjudged value, Granted policy c := by
  unfold unjudged
  split_ifs with hwritten
  · rfl
  · cases hcommands : systemdCommands value with
    | nil => rfl
    | cons c rest =>
      have hc : Granted policy c := judged_granted h hhead hwritten (by rw [hcommands, List.head?_cons])
      rw [List.forall_mem_cons, List.tail_cons]
      exact and_iff_right hc

/-! ## Units -/

/-- A directive's value is stripped. -/
theorem directivesOf_strip {section_ : Str} {lines : List (ℕ × Str)} {a : Str × Str × Str}
    (h : a ∈ directivesOf section_ lines) : ∃ v, a.2.2 = strip v := by
  -- Induction on the lines, with the section that they are in.
  induction lines generalizing section_ with
  | nil => exact absurd h List.not_mem_nil
  | cons first rest ih =>
    obtain ⟨number, line⟩ := first
    rw [directivesOf] at h
    by_cases hheader : line.head? = some '['
    · rw [if_pos hheader] at h
      exact ih h
    · rw [if_neg hheader] at h
      generalize line.partition '=' = parts at h
      obtain ⟨key, sep, value⟩ := parts
      cases sep with
      | false => exact ih h
      | true =>
        rcases List.mem_cons.mp h with rfl | h
        · exact ⟨value, rfl⟩
        · exact ih h

set_option maxRecDepth 100000 in
/-- Every directive of a section that is one of the `Exec` directives is judged as one. -/
theorem kind_exec : ∀ suffix, ∀ e ∈ sections suffix, ∀ d ∈ e.2, d.1 ∈ execKeys → d.2 = .exec := by
  intro suffix
  cases suffix <;> decide

/-- An allowed command is not refused. -/
theorem execRefusal_of_allowed {suffix : Suffix} {a : Str × Str × Str}
    (h : Allowed suffix policy a) (hkey : isOneOf execKeys a.2.1 = true) :
    execRefusal a.2.2 policy a.2.1 = none := by
  obtain ⟨directives, kind, hdirectives, hkind, hvalue⟩ := h
  obtain ⟨e, he, -, rfl⟩ := lookup_mem hdirectives
  obtain ⟨d, hd, hname, rfl⟩ := lookup_mem hkind
  obtain ⟨s, hs, hsname⟩ := List.any_eq_true.mp hkey
  have hexec : d.1 ∈ execKeys := by
    rw [← String.toList_inj.mp ((of_decide_eq_true hsname).trans hname.symm)]
    exact hs
  rw [kind_exec suffix e he d hd hexec] at hvalue
  exact Option.some.inj hvalue

/-- A unit that is not refused runs granted commands only exactly when the commands that were not
judged are granted. It has none of them where every value holds one command, of which the first word
is written without a backslash. -/
theorem execsGranted_iff (name text : Str) (policy : RootPolicy)
    (h : validateUnit name text policy = some []) :
    (ExecsGranted policy text ↔
      ∀ value ∈ execValues text, ∀ c ∈ unjudged value, Granted policy c) ∧
    ((∀ value ∈ execValues text, OneCommand value) → ExecsGranted policy text) := by
  obtain ⟨suffix, lines, -, -, hlines, hallowed⟩ := validateUnit_allowed h
  -- A value that was not refused runs granted commands when those not judged are.
  have hvalue : ∀ value ∈ execValues text, (∀ c ∈ systemdCommands value, Granted policy c) ↔
      ∀ c ∈ unjudged value, Granted policy c := by
    intro value hvalue
    unfold execValues unitDirectives at hvalue
    rw [hlines] at hvalue
    obtain ⟨a, ha, rfl⟩ := List.mem_map.mp hvalue
    obtain ⟨ha, hkey⟩ := List.mem_filter.mp ha
    obtain ⟨v, hv⟩ := directivesOf_strip ha
    refine commands_granted_iff (execRefusal_of_allowed (hallowed a ha) hkey) fun c r hcons => ?_
    rw [hv] at hcons
    have hspace : isSpace c = false := stripBy_head hcons
    by_contra hblank
    rw [isSpace_of_isBlank (by simpa using hblank)] at hspace
    exact Bool.false_ne_true hspace.symm
  have hall : ExecsGranted policy text ↔
      ∀ value ∈ execValues text, ∀ c ∈ unjudged value, Granted policy c := forall₂_congr hvalue
  refine ⟨hall, fun hone => hall.mpr fun value hvalue c hc => ?_⟩
  rw [unjudged_of_oneCommand (hone value hvalue)] at hc
  exact absurd hc List.not_mem_nil

set_option maxRecDepth 100000 in
/-- A unit with one command a value. -/
theorem execsGranted_appUnit : ExecsGranted appPolicy appUnit := by
  refine (execsGranted_iff "app.service".toList appUnit appPolicy (by decide)).2 ?_
  have hvalues : execValues appUnit = ["/usr/bin/app --serve".toList] := by decide
  rw [hvalues]
  intro value hvalue
  rw [List.mem_singleton.mp hvalue]
  exact ⟨by decide, by decide⟩

/-- A unit with two commands in one value. The second runs with full privileges, and the validator does
not see it. -/
def twoCommands : Str :=
  "[Service]\nUser=app\nExecStart=/usr/bin/app ; +/bin/sh -c id\n".toList

/-- A policy that grants a directory. -/
def treePolicy : RootPolicy := { appPolicy with execPrefixes := ["/opt/app/".toList] }

/-- A unit whose command leaves the directory that is granted, in escapes that the validator does not
decode. -/
def escapedPath : Str :=
  "[Service]\nUser=app\nExecStart=/opt/app/\\x2e\\x2e/\\x2e\\x2e/bin/sh -c id\n".toList

set_option maxRecDepth 100000 in
/-- Two units pass whose commands are not all granted. -/
theorem not_execsGranted :
    (validateUnit "app.service".toList twoCommands appPolicy = some [] ∧
      ¬ExecsGranted appPolicy twoCommands) ∧
    validateUnit "app.service".toList escapedPath treePolicy = some [] ∧
      ¬ExecsGranted treePolicy escapedPath := by
  refine ⟨⟨by decide, fun h => ?_⟩, by decide, fun h => ?_⟩
  · have hshell := h "/usr/bin/app ; +/bin/sh -c id".toList (by decide)
      ⟨['+'], "/bin/sh".toList, ["-c".toList, "id".toList]⟩ (by decide)
    exact absurd (hshell.1 '+' (by decide)) (by decide)
  · have hshell := h "/opt/app/\\x2e\\x2e/\\x2e\\x2e/bin/sh -c id".toList (by decide)
      ⟨[], "/opt/app/../../bin/sh".toList, ["-c".toList, "id".toList]⟩ (by decide)
    exact absurd hshell.2 (by decide)

end Fraisier.Unit
