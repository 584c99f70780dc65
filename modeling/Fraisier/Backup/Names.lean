import Mathlib.Data.List.Infix
import Fraisier.Backup.Dump

/-!
# Names of dumps

The name of a dump is found by the pattern of its database and mode, and says whether it is lean
(`isLeanDump_filename`), unless a newline follows the algorithm: `_COMPRESSION_RE` lets one through.
-/

namespace Fraisier.Backup

open Fraisier.Lib Str

variable {call call' : Call} {now : Minute} {s t : Str} {n : ℕ}

/-! ## Digits -/

/-- A number is written in as many digits as asked for. -/
theorem length_digits (width n : ℕ) : (digits width n).length = width := by
  induction width generalizing n with
  | zero => rfl
  | succ width ih => rw [digits, List.length_append, ih, List.length_singleton]

/-- A digit is decimal. -/
theorem isDecimal_digitChar (hn : n < 10) : isDecimal (Nat.digitChar n) = true := by
  have hall : ∀ n < 10, isDecimal (Nat.digitChar n) = true := by decide
  exact hall n hn

/-- A number is written in decimal digits. -/
theorem isDecimal_digits {width : ℕ} {c : Char} (hc : c ∈ digits width n) : isDecimal c = true := by
  induction width generalizing n with
  | zero => cases hc
  | succ width ih =>
    rcases List.mem_append.mp hc with hc | hc
    · exact ih hc
    · rw [List.mem_singleton.mp hc]
      exact isDecimal_digitChar (Nat.mod_lt n (by omega))

/-- A date has eight characters. -/
theorem length_date : now.date.length = 8 := by
  simp only [Minute.date, List.length_append, length_digits]

/-- A time has four characters. -/
theorem length_time : now.time.length = 4 := by
  simp only [Minute.time, List.length_append, length_digits]

/-- A date is made of digits. -/
theorem isDecimal_date {c : Char} (hc : c ∈ now.date) : isDecimal c = true := by
  rw [Minute.date, List.mem_append, List.mem_append] at hc
  rcases hc with (hc | hc) | hc <;> exact isDecimal_digits hc

/-- A time is made of digits. -/
theorem isDecimal_time {c : Char} (hc : c ∈ now.time) : isDecimal c = true := by
  rw [Minute.time, List.mem_append] at hc
  rcases hc with hc | hc <;> exact isDecimal_digits hc

/-! ## The pattern of lean dumps -/

/-- A text is taken off the front. -/
theorem afterText_append (start s : Str) : afterText start (start ++ s) = some s := by
  have hprefix : (start ++ s).startsWith start = true :=
    List.isPrefixOf_iff_prefix.mpr (List.prefix_append start s)
  rw [afterText, if_pos hprefix, List.drop_left]

/-- What a text is taken off began with it. -/
theorem afterText_eq_some {start : Str} (h : afterText start s = some t) : s = start ++ t := by
  unfold afterText at h
  split at h
  · rename_i hprefix
    obtain ⟨rest, rfl⟩ := List.isPrefixOf_iff_prefix.mp hprefix
    rw [List.drop_left] at h
    rw [Option.some.inj h]
  · cases h

/-- Digits are taken off the front. -/
theorem afterDigits_append {digits : Str} (hdigits : ∀ c ∈ digits, isDecimal c = true) (s : Str) :
    afterDigits digits.length (digits ++ s) = some s := by
  induction digits with
  | nil => rfl
  | cons c digits ih =>
    rw [List.length_cons, List.cons_append, afterDigits, if_pos (hdigits c List.mem_cons_self)]
    exact ih fun c hc => hdigits c (List.mem_cons_of_mem _ hc)

/-- What digits are taken off began with them. -/
theorem afterDigits_eq_some (h : afterDigits n s = some t) : ∃ digits, s = digits ++ t := by
  induction n generalizing s with
  | zero => exact ⟨[], Option.some.inj h⟩
  | succ n ih =>
    cases s with
    | nil => cases h
    | cons c s =>
      rw [afterDigits] at h
      split at h
      · obtain ⟨digits, rfl⟩ := ih h
        exact ⟨c :: digits, rfl⟩
      · cases h

/-- A date, a time and the lean mark are found at the front. -/
theorem leanAt_append {date time : Str} (hdate : date.length = 8)
    (hdate' : ∀ c ∈ date, isDecimal c = true) (htime : time.length = 4)
    (htime' : ∀ c ∈ time, isDecimal c = true) (s : Str) :
    leanAt ('_' :: date ++ '_' :: time ++ "_lean".toList ++ s) = endsLean s := by
  -- The parts are taken off the front one after the other.
  have h₁ := afterText_append ['_'] (date ++ (['_'] ++ (time ++ ("_lean".toList ++ s))))
  have h₂ := afterDigits_append hdate' (['_'] ++ (time ++ ("_lean".toList ++ s)))
  have h₃ := afterText_append ['_'] (time ++ ("_lean".toList ++ s))
  have h₄ := afterDigits_append htime' ("_lean".toList ++ s)
  have h₅ := afterText_append "_lean".toList s
  have hsplit : '_' :: date ++ '_' :: time ++ "_lean".toList ++ s =
      ['_'] ++ (date ++ (['_'] ++ (time ++ ("_lean".toList ++ s)))) := by
    simp only [List.cons_append, List.nil_append, List.append_assoc]
  rw [hdate] at h₂
  rw [htime] at h₄
  rw [leanAt, hsplit, h₁, Option.bind_some, h₂, Option.bind_some, h₃, Option.bind_some, h₄,
    Option.bind_some, h₅]
  rfl

/-- What is found at the front holds the lean mark before its end. -/
theorem leanAt_cases (h : leanAt s = true) :
    ∃ start stop, s = start ++ "_lean".toList ++ stop ∧ endsLean stop = true := by
  rw [leanAt, Option.getD_eq_iff] at h
  rcases h with h | ⟨-, h⟩
  · obtain ⟨s₁, h₁, h⟩ := Option.bind_eq_some_iff.mp h
    obtain ⟨s₂, h₂, h⟩ := Option.bind_eq_some_iff.mp h
    obtain ⟨s₃, h₃, h⟩ := Option.bind_eq_some_iff.mp h
    obtain ⟨s₄, h₄, h⟩ := Option.bind_eq_some_iff.mp h
    obtain ⟨s₅, h₅, hstop⟩ := Option.map_eq_some_iff.mp h
    obtain ⟨date, rfl⟩ := afterDigits_eq_some h₂
    obtain ⟨time, rfl⟩ := afterDigits_eq_some h₄
    obtain rfl := afterText_eq_some h₁
    obtain rfl := afterText_eq_some h₃
    obtain rfl := afterText_eq_some h₅
    refine ⟨['_'] ++ date ++ ['_'] ++ time, s₅, ?_, hstop⟩
    simp only [List.append_assoc]
  · cases h

/-! ## Algorithms -/

/-- `chomp` takes off one newline at most. -/
theorem chomp_cases (h : chomp s = t) : ∃ stop, s = t ++ stop ∧ (stop = [] ∨ stop = ['\n']) := by
  unfold chomp at h
  split at h
  · rename_i hnewline
    obtain ⟨rest, rfl⟩ := List.isSuffixOf_iff_suffix.mp hnewline
    rw [List.dropLast_concat] at h
    exact ⟨['\n'], by rw [h], Or.inr rfl⟩
  · exact ⟨[], by rw [h, List.append_nil], Or.inl rfl⟩

/-- The first part is what comes before the character. -/
theorem fst_partition (c : Char) (s : Str) : (partition c s).1 = s.takeWhile (· ≠ c) := by
  unfold partition
  split
  · rename_i hnone
    have happend := List.takeWhile_append_dropWhile (p := (· ≠ c)) (l := s)
    rw [hnone, List.append_nil] at happend
    exact happend.symm
  · rfl

/-- The algorithms of `_COMPRESSION_RE`. -/
def algos : List Str := ["zstd".toList, "lz4".toList, "gzip".toList, "none".toList]

/-- The algorithm of a call that is accepted, unless a newline follows it. -/
theorem mem_algos (hvalid : call.validate = .ok ()) (hnewline : '\n' ∉ call.algo) :
    call.algo ∈ algos := by
  have hcompression : validateCompression call.compression = .ok () := by
    simp only [Call.validate, bind, Except.bind] at hvalid
    split at hvalid
    · cases hvalid
    split at hvalid
    · cases hvalid
    split at hvalid
    · cases hvalid
    · assumption
  -- without a newline after it, the algorithm stands before the colon that is matched
  have halgo : call.algo = (partition ':' (chomp call.compression)).1 := by
    obtain ⟨stop, hsplit, hstop⟩ := chomp_cases (rfl : chomp call.compression = _)
    rw [Call.algo, fst_partition] at hnewline ⊢
    rw [fst_partition]
    generalize chomp call.compression = matched at hsplit ⊢
    rw [hsplit] at hnewline ⊢
    rcases hstop with rfl | rfl
    · rw [List.append_nil]
    · rw [List.takeWhile_append] at hnewline ⊢
      split
      · rename_i hall
        rw [if_pos hall] at hnewline
        exact absurd (List.mem_append_right _ List.mem_cons_self) hnewline
      · rfl
  unfold validateCompression at hcompression
  dsimp only at hcompression
  split at hcompression
  · rename_i hmatch
    rw [Bool.and_eq_true] at hmatch
    obtain ⟨algo, hmem, heq⟩ := List.any_eq_true.mp hmatch.1
    rw [halgo, ← of_decide_eq_true heq]
    exact List.mem_map_of_mem (f := String.toList) hmem
  · cases hcompression

/-! ## Lean names -/

/-- What `endsLean` finds: an algorithm or none, and the end of the name. -/
theorem endsLean_cases (h : endsLean s = true) : ∃ algo stop,
    s = algo ++ ".dump".toList ++ stop ∧ (stop = [] ∨ stop = ['\n']) ∧
      (algo = [] ∨ ∃ segment, algo = '_' :: segment ∧ '_' ∉ segment) := by
  unfold endsLean at h
  rw [Bool.or_eq_true, decide_eq_true_eq] at h
  -- The end of the name follows at once, or after one segment more.
  rcases h with h | h
  · obtain ⟨stop, rfl, hstop⟩ := chomp_cases h
    exact ⟨[], stop, rfl, hstop, Or.inl rfl⟩
  · cases s with
    | nil => cases h
    | cons c s =>
      simp only [Bool.and_eq_true, decide_eq_true_eq] at h
      obtain ⟨⟨rfl, -⟩, h⟩ := h
      obtain ⟨stop, hrest, hstop⟩ := chomp_cases h
      refine ⟨'_' :: s.takeWhile isAlgoChar, stop, ?_, hstop, Or.inr ⟨_, rfl, fun hmem => ?_⟩⟩
      · rw [List.cons_append, List.cons_append, List.append_assoc, ← hrest,
          List.takeWhile_append_dropWhile]
      · exact absurd (List.mem_takeWhile_imp hmem) (by decide)

/-- What follows the last underscore is determined. -/
theorem segments_inj {xs ys : Str} (hs : '_' ∉ s) (ht : '_' ∉ t)
    (h : xs ++ '_' :: s = ys ++ '_' :: t) : xs = ys ∧ s = t := by
  -- Induction on the text before the underscore.
  induction xs generalizing ys with
  | nil =>
    cases ys with
    | nil => exact ⟨rfl, (List.cons.inj h).2⟩
    | cons y ys =>
      have hrest : s = ys ++ '_' :: t := (List.cons.inj h).2
      exact absurd (hrest ▸ List.mem_append_right ys List.mem_cons_self) hs
  | cons x xs ih =>
    cases ys with
    | nil =>
      have hrest : xs ++ '_' :: s = t := (List.cons.inj h).2
      exact absurd (hrest ▸ List.mem_append_right xs List.mem_cons_self) ht
    | cons y ys =>
      obtain ⟨rfl, hrest⟩ := List.cons.inj h
      obtain ⟨rfl, rfl⟩ := ih hrest
      exact ⟨rfl, rfl⟩

/-- A run of digits has no underscore, and is not `lean`. -/
theorem digits_ne (hdigits : ∀ c ∈ s, isDecimal c = true) : '_' ∉ s ∧ s ≠ "lean".toList := by
  constructor
  · intro hmem
    exact absurd (hdigits _ hmem) (by decide)
  · rintro rfl
    exact absurd (hdigits 'l' List.mem_cons_self) (by decide)

/-- The suffix of a dump ends a lean name. -/
theorem endsLean_suffix (halgo : call.algo ∈ algos) :
    endsLean (call.suffix ++ ".dump".toList) = true := by
  unfold Call.suffix
  revert halgo
  generalize call.algo = algo
  intro halgo
  simp only [algos, List.mem_cons, List.not_mem_nil, or_false] at halgo
  rcases halgo with rfl | rfl | rfl | rfl <;> decide

/-- The suffix of a name, as a segment of it. -/
theorem suffix_cases (halgo : call.algo ∈ algos) :
    call.suffix = [] ∨ ∃ segment, call.suffix = '_' :: segment ∧ '_' ∉ segment ∧
      segment ≠ "lean".toList := by
  unfold Call.suffix
  split
  · refine Or.inr ⟨_, rfl, ?_⟩
    have hall : ∀ algo ∈ algos, '_' ∉ algo ∧ algo ≠ "lean".toList := by decide
    exact hall _ halgo
  · exact Or.inl rfl

/-- No name with the dump's extension ends with a newline. -/
theorem dump_ne_newline (xs ys : Str) : xs ++ ".dump".toList ≠ ys ++ ['\n'] := by
  intro h
  have hlast := congrArg List.getLast? h
  rw [List.getLast?_append, List.getLast?_append] at hlast
  exact absurd (Option.some.inj hlast) (by decide)

/-- The name of a dump with its rows is not that of a lean one. -/
theorem not_lean {before start algo stop : Str} (halgo : call.algo ∈ algos)
    (hstop : stop = [] ∨ stop = ['\n'])
    (hsegment : algo = [] ∨ ∃ segment, algo = '_' :: segment ∧ '_' ∉ segment)
    (h : before ++ (start ++ "_lean".toList ++ (algo ++ ".dump".toList ++ stop)) =
      call.start ++ '_' :: now.date ++ '_' :: now.time ++ [] ++ call.suffix ++ ".dump".toList) :
    False := by
  -- The segments of a date and a time are digits, so none of them is `lean`.
  have hdate := digits_ne fun c (hc : c ∈ now.date) => isDecimal_date hc
  have htime := digits_ne fun c (hc : c ∈ now.time) => isDecimal_time hc
  rcases hstop with rfl | rfl
  · -- less the end of the names, their last segments are compared
    have hnames : (before ++ start) ++ '_' :: "lean".toList ++ algo ++ ".dump".toList =
        call.start ++ '_' :: now.date ++ '_' :: now.time ++ call.suffix ++ ".dump".toList := by
      rw [List.append_nil, List.append_nil] at h
      rw [← h]
      simp only [List.append_assoc]
      rfl
    have hname := List.append_cancel_right hnames
    have hlean : '_' ∉ "lean".toList := by decide
    rcases hsegment with rfl | ⟨segment, rfl, hsegment⟩ <;>
      rcases suffix_cases halgo with hsuffix | ⟨algo, hsuffix, halgo, hne⟩ <;>
        rw [hsuffix] at hname
    · rw [List.append_nil, List.append_nil] at hname
      exact htime.2 (segments_inj hlean htime.1 hname).2.symm
    · rw [List.append_nil] at hname
      exact hne (segments_inj hlean halgo hname).2.symm
    · rw [List.append_nil] at hname
      have hbefore := (segments_inj hsegment htime.1 hname).1
      exact hdate.2 (segments_inj hlean hdate.1 hbefore).2.symm
    · have hbefore := (segments_inj hsegment halgo hname).1
      exact htime.2 (segments_inj hlean htime.1 hbefore).2.symm
  · refine dump_ne_newline _ (before ++ start ++ "_lean".toList ++ algo ++ ".dump".toList)
      (h.symm.trans ?_)
    simp only [List.append_assoc]

/-- The name of a dump says whether it is lean. -/
theorem isLeanDump_filename (halgo : call.algo ∈ algos) :
    isLeanDump (call.filename now) = call.lean := by
  unfold isLeanDump Call.filename
  cases call.lean with
  | true =>
    refine List.any_eq_true.mpr ⟨'_' :: now.date ++ '_' :: now.time ++ "_lean".toList ++
      (call.suffix ++ ".dump".toList), ?_, ?_⟩
    · refine (List.mem_tails _ _).mpr ⟨call.start, ?_⟩
      simp only [if_pos, List.append_assoc, List.cons_append]
    · rw [leanAt_append length_date (fun c => isDecimal_date) length_time (fun c => isDecimal_time)]
      exact endsLean_suffix halgo
  -- A dump that is not lean has no mark that could be found.
  | false =>
    refine Bool.eq_false_iff.mpr fun hany => ?_
    obtain ⟨tail, htail, hlean⟩ := List.any_eq_true.mp hany
    obtain ⟨before, hbefore⟩ := (List.mem_tails _ _).mp htail
    obtain ⟨start, rest, rfl, hrest⟩ := leanAt_cases hlean
    obtain ⟨algo, stop, rfl, hstop, hsegment⟩ := endsLean_cases hrest
    exact not_lean halgo hstop hsegment hbefore

/-- A dump is found by the pattern of its own database and mode. -/
theorem finds_filename (hstart : call'.start = call.start) :
    call.finds (call'.filename now) = true := by
  have hname : call'.filename now = (call.start ++ ['_']) ++ (now.date ++ '_' :: now.time ++
      (if call'.lean then "_lean".toList else []) ++ call'.suffix ++ ".dump".toList) := by
    rw [Call.filename, hstart]
    simp only [List.append_assoc, List.cons_append, List.nil_append]
  rw [Call.finds, hname, List.drop_left, Bool.and_eq_true]
  exact ⟨List.isPrefixOf_iff_prefix.mpr (List.prefix_append _ _),
    List.isSuffixOf_iff_suffix.mpr (List.suffix_append _ _)⟩

end Fraisier.Backup
