import Fraisier.Dbops.Drift

/-!
# When the drift gate fails closed

A check that did not run has cleared nothing: a result may have `passed` only when the output is one
of the two known shapes with a clean report for each selected check and the exit is 0 (`Clean`).
The gate reads no more than whether a report it finds flags drift (`Flags`), so an output that
flags nothing must be clean for another reason; and it reads the lists of a report as they come, so
one that is no list of objects raises (`fails_closed_iff`).
-/

namespace Fraisier.Dbops

open Fraisier.Lib Json Unicode Fallible

variable {limit : ℕ} {limits : Limits} {escalate : List String} {report : Members}
  {found : List Members}

/-! ## What a report says -/

/-- What a report lists under a key. -/
def listed (report : Members) (key : String) : List Json :=
  match getD report key (.arr []) with
  | .arr items => items
  | _ => []

/-- The element has the severity. -/
def IsGraded (severity : String) (item : Json) : Prop :=
  ∃ ms, item = .obj ms ∧ getD ms "severity" .null = .str (text severity)

/-- The element is a warning of a kind that this deploy does not accept. -/
def IsEscalated (escalate : List String) (item : Json) : Prop :=
  ∃ ms, item = .obj ms ∧ getD ms "severity" .null = .str (text "warning") ∧
    ∃ kind ∈ escalate, getD ms "type" (.str (text "unknown")) = .str (text kind)

/-- A report that states there is no critical drift, and lists none. -/
structure CleanReport (escalate : List String) (report : Members) : Prop where
  stated : report.lookup (text "has_critical_drift") = some (.bool false)
  graded : ∀ item ∈ listed report "drift_items",
    ¬IsGraded "critical" item ∧ ¬IsEscalated escalate item
  overloads : ∀ ms, .obj ms ∉ listed report "stale_overloads"

/-- An output of a known shape with a clean report for every selected check: an envelope that has
one under the name of each, or the bare report of one check. -/
def CleanOutput (name : String → Text) (args : GateArgs) (payload : Members) : Prop :=
  match getD payload "checks" .null with
  | .obj checks => (∀ check ∈ args.checks, (checks.lookup (name check)).isSome) ∧
      ∀ entry ∈ checks, ∃ report, entry.2 = .obj report ∧ CleanReport args.escalate report
  | _ => (∀ check ∈ args.checks, ∀ other ∈ args.checks, check = other) ∧
      CleanReport args.escalate payload

/-- A clean schema, as confiture reports one. -/
structure Clean (maxDepth : ℕ) (name : String → Text) (args : GateArgs) (run : CompletedProcess) :
    Prop where
  exit : run.returncode = 0
  output : ∃ payload, loadsOutput maxDepth run.stdout = .ok (.obj payload) ∧
    CleanOutput name args payload

/-- The gate returns a result, which has passed only on a clean schema. -/
def FailsClosed (limits : Limits) (name : String → Text) (args : GateArgs) (world : GateWorld) :
    Prop :=
  ∃ result, checkSchemaDrift limits args world = .ok result ∧
    (result.passed = true → Clean limits.loads name args world.validate)

/-! ## What the gate reads -/

/-- The reports of an output in a known shape. -/
inductive Reported (maxDepth : ℕ) (stdout : Str) : List Members → Prop
  | envelope {payload checks : Members} (h : loadsOutput maxDepth stdout = .ok (.obj payload))
      (hchecks : getD payload "checks" .null = .obj checks) :
      Reported maxDepth stdout (checks.filterMap fun check => check.2.dict?)
  | bare {payload : Members} (h : loadsOutput maxDepth stdout = .ok (.obj payload))
      (hchecks : ∀ checks, getD payload "checks" .null ≠ .obj checks)
      (hkey : (payload.lookup (text "has_critical_drift")).isSome) :
      Reported maxDepth stdout [payload]

/-- The report flags drift: its `has_critical_drift` is true, or it lists a warning that is
escalated. -/
def Flags (escalate : List String) (report : Members) : Prop :=
  (getD report "has_critical_drift" .null).truthy = true ∨
    ∃ item ∈ listed report "drift_items", IsEscalated escalate item

/-- The element is an object, and what is shown of it can be. -/
def ReadableItem (limit : ℕ) (item : Json) : Prop :=
  ∃ ms, item = .obj ms ∧ (getD ms "severity" .null).depth ≤ limit ∧
    ((getD ms "severity" .null).isStr "warning" ∨ (getD ms "severity" .null).isStr "critical" →
      (getD ms "type" (.str (text "unknown"))).depth ≤ limit ∧
        (getD ms "object" (.str (text "?"))).depth ≤ limit ∧
          (getD ms "message" (.str [])).depth ≤ limit)

/-- What is shown of an overload can be. -/
def ReadableOverload (limit : ℕ) (overload : Members) : Prop :=
  (∃ signatures,
      ((getD overload "source_signatures" .null).orElse (.arr [])).iter = .ok signatures ∧
        ∀ signature ∈ signatures, signature.depth ≤ limit) ∧
    (getD overload "stale_signature" (.str (text "?"))).depth ≤ limit ∧
      (getD overload "drop_sql" (.str (text "?"))).depth ≤ limit

/-- The lists of the report can be iterated over, and their elements read. -/
structure Readable (limit : ℕ) (report : Members) : Prop where
  items : ∃ items, (getD report "drift_items" (.arr [])).iter = .ok items ∧
    ∀ item ∈ items, ReadableItem limit item
  overloads : ∃ overloads, (getD report "stale_overloads" (.arr [])).iter = .ok overloads ∧
    ∀ ms, .obj ms ∈ overloads → ReadableOverload limit ms

/-! ## Items -/

/-- What is kept of an element, by its severity. -/
theorem driftItem_ok_iff {severity : String} {item : Json} {o : Option DriftItem} :
    driftItem limit severity item = .ok o ↔ ∃ ms, item = .obj ms ∧
      (getD ms "severity" .null).depth ≤ limit ∧
        ((getD ms "severity" .null).isStr severity = false ∧ o = none ∨
          (getD ms "severity" .null).isStr severity = true ∧
            ((getD ms "type" (.str (text "unknown"))).depth ≤ limit ∧
              (getD ms "object" (.str (text "?"))).depth ≤ limit ∧
                (getD ms "message" (.str [])).depth ≤ limit) ∧
              o = some
                { kind := getD ms "type" (.str (text "unknown")), severity,
                  objectName := getD ms "object" (.str (text "?")),
                  message := .said (getD ms "message" (.str [])) }) := by
  unfold driftItem
  simp only [bind_ok_iff, members_ok_iff, shown_ok_iff]
  refine exists_congr fun ms => and_congr_right fun _ => ?_
  -- An element of another severity is passed over.
  cases h : (getD ms "severity" .null).isStr severity with
  | false =>
    simp [pure, Except.pure, h, eq_comm]
  | true =>
    simp [pure, Except.pure, h, bind_ok_iff, shown_ok_iff, and_assoc, @eq_comm _ o]

/-- The elements of a report that are kept. -/
theorem reportItems_ok_iff {severity : String} {ds : List DriftItem} :
    reportItems limit severity report = .ok ds ↔ ∃ items kept,
      (getD report "drift_items" (.arr [])).iter = .ok items ∧
        items.mapM (driftItem limit severity) = .ok kept ∧ kept.reduceOption = ds := by
  unfold reportItems
  simp only [bind_ok_iff, pure, Except.pure, Except.ok.injEq]
  constructor
  · rintro ⟨items, hi, kept, hk, hd⟩
    exact ⟨items, kept, hi, hk, hd⟩
  · rintro ⟨items, kept, hi, hk, hd⟩
    exact ⟨items, hi, kept, hk, hd⟩

/-- The items are those of all reports in order. -/
theorem items_ok_iff {severity : String} {ds : List DriftItem} :
    items limit found severity = .ok ds ↔ ∃ dss,
      found.mapM (reportItems limit severity) = .ok dss ∧ dss.flatten = ds := by
  unfold items
  simp only [bind_ok_iff, pure, Except.pure, Except.ok.injEq]

/-- The overloads are those of all reports in order. -/
theorem staleOverloads_ok_iff {ds : List DriftItem} :
    staleOverloads limit found = .ok ds ↔ ∃ dss,
      found.mapM (reportOverloads limit) = .ok dss ∧ dss.flatten = ds := by
  unfold staleOverloads
  simp only [bind_ok_iff, pure, Except.pure, Except.ok.injEq]

/-- The overloads of a report can be listed when what is shown of them can be. -/
theorem exists_reportOverloads_iff :
    (∃ ds, reportOverloads limit report = .ok ds) ↔
      ∃ overloads, (getD report "stale_overloads" (.arr [])).iter = .ok overloads ∧
        ∀ ms, .obj ms ∈ overloads → ReadableOverload limit ms := by
  -- One overload is listed when its signatures can be read and its texts shown.
  have hitem : ∀ ms, (∃ d, staleOverloadItem limit ms = .ok d) ↔ ReadableOverload limit ms := by
    intro ms
    unfold staleOverloadItem ReadableOverload
    simp only [bind_ok_iff, shown_ok_iff, pure, Except.pure, Except.ok.injEq]
    constructor
    · rintro ⟨d, signatures, hs, declared, hd, -, ⟨ho, -⟩, -, ⟨hr, -⟩, -⟩
      have hall := exists_mapM_ok_iff.mp ⟨declared, hd⟩
      exact ⟨⟨signatures, hs, fun v hv => (shown_ok_iff.mp (hall v hv).choose_spec).1⟩, ho, hr⟩
    · rintro ⟨⟨signatures, hs, hall⟩, ho, hr⟩
      obtain ⟨declared, hd⟩ := exists_mapM_ok_iff.mpr fun v hv =>
        ⟨v, shown_ok_iff.mpr ⟨hall v hv, rfl⟩⟩
      exact ⟨_, signatures, hs, declared, hd, _, ⟨ho, rfl⟩, _, ⟨hr, rfl⟩, rfl⟩
  unfold reportOverloads
  simp only [bind_ok_iff]
  rw [exists_comm]
  refine exists_congr fun overloads => ?_
  rw [exists_and_left, exists_mapM_ok_iff]
  refine and_congr_right fun _ => ?_
  constructor
  · intro h ms hms
    exact (hitem ms).mp (h ms (List.mem_filterMap.mpr ⟨_, hms, rfl⟩))
  · intro h ms hms
    obtain ⟨v, hv, hvm⟩ := List.mem_filterMap.mp hms
    cases v <;> simp only [dict?, Option.some.injEq, reduceCtorEq] at hvm
    exact (hitem ms).mpr (h ms (hvm ▸ hv))

/-- The elements of a report can be kept, whatever the severity, when what is shown of them can
be. -/
theorem exists_reportItems_iff :
    ((∃ ds, reportItems limit "warning" report = .ok ds) ∧
        ∃ ds, reportItems limit "critical" report = .ok ds) ↔
      ∃ items, (getD report "drift_items" (.arr [])).iter = .ok items ∧
        ∀ item ∈ items, ReadableItem limit item := by
  -- Of one severity, each element is passed over or kept.
  have hitem : ∀ severity, (∃ ds, reportItems limit severity report = .ok ds) ↔
      ∃ items, (getD report "drift_items" (.arr [])).iter = .ok items ∧
        ∀ item ∈ items, ∃ o, driftItem limit severity item = .ok o := by
    intro severity
    simp only [reportItems_ok_iff]
    constructor
    · rintro ⟨-, items, kept, hi, hk, -⟩
      exact ⟨items, hi, exists_mapM_ok_iff.mp ⟨kept, hk⟩⟩
    · rintro ⟨items, hi, h⟩
      obtain ⟨kept, hk⟩ := exists_mapM_ok_iff.mpr h
      exact ⟨_, items, kept, hi, hk, rfl⟩
  -- The elements are read once for each of the two severities.
  rw [hitem, hitem]
  constructor
  · rintro ⟨⟨items, hi, hw⟩, items', hi', hc⟩
    obtain rfl := Except.ok.inj (hi.symm.trans hi')
    refine ⟨items, hi, fun item hitem => ?_⟩
    obtain ⟨o, ho⟩ := hw item hitem
    obtain ⟨o', ho'⟩ := hc item hitem
    obtain ⟨ms, rfl, hdepth, hwarn⟩ := driftItem_ok_iff.mp ho
    obtain ⟨ms', hms, -, hcrit⟩ := driftItem_ok_iff.mp ho'
    cases hms
    refine ⟨ms, rfl, hdepth, fun hsev => ?_⟩
    rcases hsev with hs | hs
    · exact (hwarn.resolve_left (by simp [hs])).2.1
    · exact (hcrit.resolve_left (by simp [hs])).2.1
  · rintro ⟨items, hi, h⟩
    have hkeep : ∀ severity ∈ ["warning", "critical"], ∀ item ∈ items,
        ∃ o, driftItem limit severity item = .ok o := by
      intro severity hsev item hitem
      obtain ⟨ms, rfl, hdepth, hshown⟩ := h item hitem
      simp only [driftItem_ok_iff]
      cases hs : (getD ms "severity" .null).isStr severity with
      | false => exact ⟨none, ms, rfl, hdepth, .inl ⟨hs, rfl⟩⟩
      | true =>
        refine ⟨_, ms, rfl, hdepth, .inr ⟨hs, hshown ?_, rfl⟩⟩
        simpa [hs] using List.mem_pair.mp hsev |>.imp (fun h => h ▸ hs) fun h => h ▸ hs
    exact ⟨⟨items, hi, hkeep _ (by simp)⟩, items, hi, hkeep _ (by simp)⟩

/-! ## The verdict -/

/-- A list that holds objects is listed as it is iterated over. -/
theorem listed_of_iter {key : String} {items : List Json}
    (h : (getD report key (.arr [])).iter = .ok items)
    (hobj : ∀ item ∈ items, ∃ ms, item = .obj ms) :
    listed report key = items := by
  unfold listed
  cases hv : getD report key (.arr []) with
  | arr found => simpa [hv, iter] using h
  | obj ms =>
    -- the keys of an object are no objects
    obtain rfl : items = ms.map fun m => .str m.1 := by simpa [hv, iter, eq_comm] using h
    cases ms with
    | nil => rfl
    | cons m ms => obtain ⟨_, hm⟩ := hobj (.str m.1) (by simp); cases hm
  | str s =>
    obtain rfl : items = s.map fun c => .str [c] := by simpa [hv, iter, eq_comm] using h
    cases s with
    | nil => rfl
    | cons c s => obtain ⟨_, hm⟩ := hobj (.str [c]) (by simp); cases hm
  | null => simp [hv, iter] at h
  | bool b => simp [hv, iter] at h
  | int n => simp [hv, iter] at h
  | float literal => simp [hv, iter] at h

/-- The items of a readable report are listed. -/
theorem Readable.listed_items (h : Readable limit report) :
    (getD report "drift_items" (.arr [])).iter = .ok (listed report "drift_items") ∧
      ∀ item ∈ listed report "drift_items", ReadableItem limit item := by
  obtain ⟨items, hi, hread⟩ := h.items
  have hobj : ∀ item ∈ items, ∃ ms, item = .obj ms := fun item hitem =>
    (hread item hitem).imp fun _ hms => hms.1
  rw [listed_of_iter hi hobj]
  exact ⟨hi, hread⟩

/-- The verdict is reached when every report can be read. -/
theorem exists_verdict_iff {args : GateArgs} {notes : List BuildNote} {run : CompletedProcess} :
    (∃ result, verdict limit args notes run found = .ok result) ↔
      ∀ report ∈ found, Readable limit report := by
  -- The verdict is reached when its three lists are made.
  have hparts : (∃ result, verdict limit args notes run found = .ok result) ↔
      (∃ ds, items limit found "warning" = .ok ds) ∧ (∃ ds, items limit found "critical" = .ok ds) ∧
        ∃ ds, staleOverloads limit found = .ok ds := by
    unfold verdict
    simp only [bind_ok_iff, pure, Except.pure, Except.ok.injEq]
    constructor
    · rintro ⟨-, ws, hw, cs, hc, os, ho, -⟩
      exact ⟨⟨ws, hw⟩, ⟨cs, hc⟩, os, ho⟩
    · rintro ⟨⟨ws, hw⟩, ⟨cs, hc⟩, os, ho⟩
      exact ⟨_, ws, hw, cs, hc, os, ho, rfl⟩
  have hitems : ∀ severity, (∃ ds, items limit found severity = .ok ds) ↔
      ∀ report ∈ found, ∃ ds, reportItems limit severity report = .ok ds := by
    intro severity
    rw [← exists_mapM_ok_iff]
    simp only [items_ok_iff]
    exact ⟨fun ⟨_, dss, h, _⟩ => ⟨dss, h⟩, fun ⟨dss, h⟩ => ⟨_, dss, h, rfl⟩⟩
  have hoverloads : (∃ ds, staleOverloads limit found = .ok ds) ↔
      ∀ report ∈ found, ∃ ds, reportOverloads limit report = .ok ds := by
    rw [← exists_mapM_ok_iff]
    simp only [staleOverloads_ok_iff]
    exact ⟨fun ⟨_, dss, h, _⟩ => ⟨dss, h⟩, fun ⟨dss, h⟩ => ⟨_, dss, h, rfl⟩⟩
  rw [hparts, hitems, hitems, hoverloads]
  constructor
  · rintro ⟨hw, hc, ho⟩ report hr
    exact ⟨exists_reportItems_iff.mp ⟨hw report hr, hc report hr⟩,
      exists_reportOverloads_iff.mp (ho report hr)⟩
  · intro h
    exact ⟨fun r hr => (exists_reportItems_iff.mpr (h r hr).items).1,
      fun r hr => (exists_reportItems_iff.mpr (h r hr).items).2,
      fun r hr => exists_reportOverloads_iff.mpr (h r hr).overloads⟩

/-- A warning that is kept from a report is one that it lists. -/
theorem escalated_iff {ws : List DriftItem} (hread : ∀ report ∈ found, Readable limit report)
    (hw : items limit found "warning" = .ok ws) :
    (∃ w ∈ ws, w.isEscalated escalate = true) ↔
      ∃ report ∈ found, ∃ item ∈ listed report "drift_items", IsEscalated escalate item := by
  obtain ⟨dss, hdss, rfl⟩ := items_ok_iff.mp hw
  -- What is kept is what the reports list.
  have hkept : ∀ w, w ∈ dss.flatten ↔ ∃ report ∈ found, ∃ item ∈ listed report "drift_items",
      driftItem limit "warning" item = .ok (some w) := by
    intro w
    rw [List.mem_flatten]
    constructor
    · rintro ⟨ds, hds, hw⟩
      obtain ⟨report, hr, hreport⟩ := (mem_of_mapM_ok hdss).mp hds
      obtain ⟨items, kept, hi, hk, rfl⟩ := reportItems_ok_iff.mp hreport
      rw [(hread report hr).listed_items.1] at hi
      obtain rfl := Except.ok.inj hi
      obtain ⟨item, hitem, ho⟩ := (mem_of_mapM_ok hk).mp (List.reduceOption_mem_iff.mp hw)
      exact ⟨report, hr, item, hitem, ho⟩
    · rintro ⟨report, hr, item, hitem, ho⟩
      obtain ⟨ds, hreport⟩ := exists_mapM_ok_iff.mp ⟨dss, hdss⟩ report hr
      refine ⟨ds, (mem_of_mapM_ok hdss).mpr ⟨report, hr, hreport⟩, ?_⟩
      obtain ⟨items, kept, hi, hk, rfl⟩ := reportItems_ok_iff.mp hreport
      rw [(hread report hr).listed_items.1] at hi
      obtain rfl := Except.ok.inj hi
      exact List.reduceOption_mem_iff.mpr ((mem_of_mapM_ok hk).mpr ⟨item, hitem, ho⟩)
  constructor
  · rintro ⟨w, hw, hesc⟩
    obtain ⟨report, hr, item, hitem, ho⟩ := (hkept w).mp hw
    obtain ⟨ms, rfl, -, h⟩ := driftItem_ok_iff.mp ho
    obtain ⟨hsev, -, hd⟩ := h.resolve_left (by simp)
    obtain ⟨kind, hkind, hk⟩ := List.any_eq_true.mp hesc
    cases Option.some.inj hd
    exact ⟨report, hr, _, hitem, ms, rfl, isStr_iff.mp hsev, kind, hkind, isStr_iff.mp hk⟩
  · rintro ⟨report, hr, item, hitem, ms, rfl, hsev, kind, hkind, hk⟩
    obtain ⟨ms', hms, hdepth, hshown⟩ := (hread report hr).listed_items.2 _ hitem
    cases hms
    have hw := isStr_iff.mpr hsev
    refine ⟨_, (hkept _).mpr ⟨report, hr, _, hitem, driftItem_ok_iff.mpr
      ⟨ms, rfl, hdepth, .inr ⟨hw, hshown (.inl hw), rfl⟩⟩⟩, ?_⟩
    exact List.any_eq_true.mpr ⟨kind, hkind, isStr_iff.mpr hk⟩

/-- A verdict has passed when no report flags drift. -/
theorem verdict_passed_iff {args : GateArgs} {notes : List BuildNote} {run : CompletedProcess}
    {result : DriftResult} (h : verdict limit args notes run found = .ok result) :
    result.passed = true ↔ ∀ report ∈ found, ¬Flags args.escalate report := by
  have hread := exists_verdict_iff.mp ⟨result, h⟩
  unfold verdict at h
  simp only [bind_ok_iff, pure, Except.pure, Except.ok.injEq] at h
  obtain ⟨ws, hw, cs, -, os, -, rfl⟩ := h
  -- What is escalated counts as drift.
  have hrisen : (escalateItems ws args.escalate).1.isEmpty = false ↔
      ∃ w ∈ ws, w.isEscalated args.escalate = true := by
    unfold escalateItems
    cases he : args.escalate with
    | nil => simp [DriftItem.isEscalated]
    | cons kind kinds => simp [List.isEmpty_eq_false_iff, List.filter_eq_nil_iff]
  have hflag : (∃ report ∈ found, Flags args.escalate report) ↔
      found.any (fun report => (getD report "has_critical_drift" .null).truthy) = true ∨
        (escalateItems ws args.escalate).1.isEmpty = false := by
    rw [hrisen, escalated_iff hread hw, List.any_eq_true]
    simp only [Flags, and_or_left, exists_or]
  have hpassed : (∀ report ∈ found, ¬Flags args.escalate report) ↔
      ¬∃ report ∈ found, Flags args.escalate report := by simp
  rw [hpassed, hflag]
  simp

/-! ## The gate -/

/-- The reports are found in an output of a known shape. -/
theorem reports_found_iff {maxDepth : ℕ} {stdout : Str} :
    reports maxDepth stdout = .ok (.ok found) ↔ Reported maxDepth stdout found := by
  constructor
  · intro h
    unfold reports at h
    split at h
    · cases h
    · cases h
    · cases h
    -- The output was read, and is an envelope or a bare report.
    · rename_i payload hload
      split at h
      · rename_i checks hchecks
        obtain rfl := Except.ok.inj (Except.ok.inj h)
        exact .envelope hload hchecks
      · rename_i hchecks
        split at h
        · obtain rfl := Except.ok.inj (Except.ok.inj h)
          exact .bare hload hchecks ‹_›
        · cases h
    · cases h
  · intro h
    unfold reports
    cases h with
    | envelope h hchecks => simp only [h, hchecks]
    | bare h hchecks hkey =>
      simp only [h, hkey, if_true]

/-- Only an output that is nested too deeply raises. -/
theorem exists_reports_iff {maxDepth : ℕ} {stdout : Str} :
    (∃ x, reports maxDepth stdout = .ok x) ↔
      loadsOutput maxDepth stdout ≠ .error .recursionError := by
  -- Any other output that cannot be read is reported.
  unfold reports
  split
  · simp [*]
  · simp [*]
  · rename_i e hrec _ hload
    refine iff_of_true ⟨_, rfl⟩ fun h => hrec ?_
    rw [hload] at h
    exact Except.error.inj h
  · rename_i payload hload
    simp only [hload, ne_eq, reduceCtorEq, not_false_eq_true, iff_true]
    split
    · exact ⟨_, rfl⟩
    · split <;> exact ⟨_, rfl⟩
  · simp [*]

/-- A reason is found for an output that can be read. -/
theorem noVerdictReason_ok {run : CompletedProcess} (reason : NoReport)
    (h : loadsOutput limit run.stdout ≠ .error .recursionError) :
    ∃ e, noVerdictReason limit run reason = .ok e := by
  obtain ⟨code, hcode⟩ := envelopeError_ok h "code"
  obtain ⟨message, hmessage⟩ := envelopeError_ok h "message"
  obtain ⟨remedy, hremedy⟩ := envelopeError_ok h "actionable"
  unfold noVerdictReason
  rw [hcode, hmessage, hremedy]
  simp only [bind, Except.bind]
  split <;> exact ⟨_, rfl⟩

/-- What follows the run of `migrate validate` returns a result: the verdict on its reports, or one
that has not passed. -/
theorem readVerdict_iff {args : GateArgs} {notes : List BuildNote} {run : CompletedProcess}
    {P : DriftResult → Prop} (hP : ∀ result : DriftResult, result.passed = false → P result) :
    (∃ result, readVerdict limits args notes run = .ok result ∧ P result) ↔
      loadsOutput limits.loads run.stdout ≠ .error .recursionError ∧
        ∀ found, Reported limits.loads run.stdout found →
          ∃ result, verdict limits.repr args notes run found = .ok result ∧ P result := by
  rw [← exists_reports_iff]
  unfold readVerdict
  constructor
  · rintro ⟨result, h, hp⟩
    obtain ⟨x, hx, h⟩ := bind_ok_iff.mp h
    refine ⟨⟨x, hx⟩, fun found hfound => ?_⟩
    rw [← reports_found_iff, hx] at hfound
    obtain rfl := Except.ok.inj hfound
    exact ⟨result, h, hp⟩
  · rintro ⟨⟨x, hx⟩, h⟩
    -- The output is reports, or the run is refused before any are read.
    cases x with
    | ok found =>
      obtain ⟨result, hr, hp⟩ := h found (reports_found_iff.mp hx)
      exact ⟨result, bind_ok_iff.mpr ⟨_, hx, hr⟩, hp⟩
    | error reason =>
      obtain ⟨e, he⟩ := noVerdictReason_ok reason (exists_reports_iff.mp ⟨_, hx⟩)
      exact ⟨_, bind_ok_iff.mpr ⟨_, hx, bind_ok_iff.mpr ⟨e, he, rfl⟩⟩, hP _ rfl⟩

/-- The gate fails closed exactly when `migrate validate` was not run, or what it printed is not
nested too deeply to be read, each report found in it can be read, and one that flags nothing is
clean. -/
theorem fails_closed_iff (limits : Limits) (name : String → Text) (args : GateArgs)
    (world : GateWorld) :
    FailsClosed limits name args world ↔
      ∀ notes, refusal args = none → world.prepared = .ok notes →
        loadsOutput limits.loads world.validate.stdout ≠ .error .recursionError ∧
          ∀ found, Reported limits.loads world.validate.stdout found →
            (∀ report ∈ found, Readable limits.repr report) ∧
              ((∃ report ∈ found, Flags args.escalate report) ∨
                Clean limits.loads name args world.validate) := by
  -- What remains when the output was read.
  have hverdict : ∀ notes found,
      (∃ result, verdict limits.repr args notes world.validate found = .ok result ∧
        (result.passed = true → Clean limits.loads name args world.validate)) ↔
      (∀ report ∈ found, Readable limits.repr report) ∧
        ((∃ report ∈ found, Flags args.escalate report) ∨
          Clean limits.loads name args world.validate) := by
    intro notes found
    have hreached : (∃ result, verdict limits.repr args notes world.validate found = .ok result) ↔
        ∀ report ∈ found, Readable limits.repr report := exists_verdict_iff
    rw [← hreached]
    constructor
    · rintro ⟨result, h, hclean⟩
      refine ⟨⟨result, h⟩, ?_⟩
      by_cases hflag : ∃ report ∈ found, Flags args.escalate report
      · exact .inl hflag
      · exact .inr (hclean ((verdict_passed_iff h).mpr (by simpa using hflag)))
    · rintro ⟨⟨result, h⟩, hflag⟩
      refine ⟨result, h, fun hp => hflag.resolve_left ?_⟩
      simpa using (verdict_passed_iff h).mp hp
  unfold FailsClosed checkSchemaDrift
  -- The refusals and the preparation come first, and fail closed.
  cases hrefused : refusal args with
  | some error => simp [pure, Except.pure]
  | none =>
    cases hprepared : world.prepared with
    | error refused => simp [pure, Except.pure]
    | ok notes =>
      simp only [readVerdict_iff (P := fun result => result.passed = true →
        Clean limits.loads name args world.validate) fun result h => by simp [h], hverdict]
      simp

/-! ## An envelope without reports -/

/-- `confiture migrate validate` exits 1 with an envelope that holds no report. -/
def emptyEnvelope : GateWorld where
  prepared := .ok []
  validate :=
    { returncode := 1
      stdout := "\x7b\"version\": 1, \"status\": \"error\", \"checks\": \x7b\x7d\x7d".toList }

/-- It passes the gate. -/
theorem empty_envelope_passes : ¬∀ (limits : Limits) (name : String → Text) (args : GateArgs)
    (world : GateWorld), args.checks ≠ [] → FailsClosed limits name args world := by
  intro h
  obtain ⟨result, hresult, hclean⟩ := h ⟨1000, 1000⟩ text
    { checks := ["live-drift", "signatures"] } emptyEnvelope (by decide)
  have hpassed : (checkSchemaDrift ⟨1000, 1000⟩ { checks := ["live-drift", "signatures"] }
      emptyEnvelope).toOption.map (·.passed) = some true := by decide +kernel
  rw [hresult] at hpassed
  exact absurd (hclean (by simpa [Except.toOption] using hpassed)).exit (by decide)

end Fraisier.Dbops
