import Mathlib.Data.Finset.Sort
import Mathlib.Data.List.Lex
import Fraisier.Lib.Fallible
import Fraisier.Lib.JsonIndent
import Fraisier.Unit.Validator

/-!
# The policy file

`dump_policy` and `parse_policy` of `root_policy.py`. The strings of a policy are those of Python, which
may hold lone surrogates: what `parse_policy` reads of an escape can be one. `parse_dump` says that a
policy that is written is read back, but for the order of its lists, and that units are judged by both
alike. The exception are strings in which a high surrogate stands before a low one: JSON writes both
as the one character that they stand for (`joins_halves`).
-/

namespace Fraisier.Unit

open Fraisier.Lib Fallible Unicode Json

/-! ## The policy -/

/-- The text of an action. -/
def Action.name : Action → Text
  | .plain => text "plain"
  | .timer => text "timer"
  | .webhook => text "webhook"
  | .installHelper => text "install_helper"

/-- The action of a text in `ACTIONS`. -/
def Action.ofName? (name : Text) : Option Action :=
  [Action.plain, .timer, .webhook, .installHelper].find? (·.name = name)

/-- `UnitGrant`. -/
structure StoredGrant where
  source : Text
  action : Action
  deriving DecidableEq

/-- `RootPolicy`. -/
structure StoredPolicy where
  project : Text
  scaffoldDir : Text
  users : Finset Text
  groups : Finset Text
  execPrefixes : List Text
  readPaths : Finset Text
  directories : Finset Text
  units : AList fun _ : Text => StoredGrant
  operatorOnly : AList fun _ : Text => Text

/-! ## Writing -/

/-- A list of strings. -/
def stringsJson (strings : List Text) : Json := .arr (strings.map .str)

/-- `{"source": g.source, "action": g.action}`. -/
def StoredGrant.toJson (grant : StoredGrant) : Json :=
  .obj [(text "source", .str grant.source), (text "action", .str grant.action.name)]

/-- `sorted(d.items())`, where the keys decide. -/
def sortedEntries {β : Type} (d : AList fun _ : Text => β) : List (Sigma fun _ : Text => β) :=
  d.entries.insertionSort fun a b => a.1 ≤ b.1

/-- The members of the payload. -/
def StoredPolicy.members (policy : StoredPolicy) : List (Text × Json) :=
  [(text "schema_version", .int 1),
    (text "project", .str policy.project),
    (text "scaffold_dir", .str policy.scaffoldDir),
    (text "users", stringsJson (policy.users.sort (· ≤ ·))),
    (text "groups", stringsJson (policy.groups.sort (· ≤ ·))),
    (text "exec_prefixes", stringsJson (policy.execPrefixes.insertionSort (· ≤ ·))),
    (text "read_paths", stringsJson (policy.readPaths.sort (· ≤ ·))),
    (text "directories", stringsJson (policy.directories.sort (· ≤ ·))),
    (text "units", .obj ((sortedEntries policy.units).map fun e => (e.1, e.2.toJson))),
    (text "operator_only", .obj ((sortedEntries policy.operatorOnly).map fun e => (e.1, .str e.2)))]

/-- `dump_policy`. -/
def dumpPolicy (policy : StoredPolicy) : Text :=
  dumpsSorted (.obj policy.members) ++ [chr '\n']

/-! ## Reading -/

/-- What `parse_policy` raises: a `RootPolicyError`, but for the last two. -/
inductive PolicyError
  | notJson
  | notObject
  | schemaVersion (version : Json)
  | emptyString (key : String)
  | notObjects
  | malformedUnit (name : Text)
  | operatorOnly
  | notStrings (key : String)
  /-- `json.loads` raises something else than `JSONDecodeError`. -/
  | loads (e : LoadsError)
  /-- An action that cannot be looked up in a set. -/
  | unhashable

/-- `isinstance(v, str)`. -/
def string? : Json → Option Text
  | .str s => some s
  | _ => none

/-- `_strings`. -/
def stringsOf (payload : List (Text × Json)) (key : String) : Except PolicyError (List Text) :=
  match payload.lookup (text key) with
  | some (.arr items) => match items.mapM string? with
    | some strings => .ok strings
    | none => .error (.notStrings key)
  | _ => .error (.notStrings key)

/-- A value that is a string, and not empty. -/
def nonEmpty (payload : List (Text × Json)) (key : String) : Except PolicyError Text :=
  match (payload.lookup (text key)).bind string? with
  | some (c :: s) => .ok (c :: s)
  | _ => .error (.emptyString key)

/-- A member of the units. -/
def readGrant (unit : Text × Json) : Except PolicyError (Sigma fun _ : Text => StoredGrant) :=
  match unit.2 with
  | .obj fields =>
    match (fields.lookup (text "source")).bind string? with
    | none => .error (.malformedUnit unit.1)
    | some source =>
      match (getD fields "action" .null).key with
      | .error _ => .error .unhashable
      | .ok (.str name) => match Action.ofName? name with
        | some action => .ok ⟨unit.1, source, action⟩
        | none => .error (.malformedUnit unit.1)
      | .ok _ => .error (.malformedUnit unit.1)
  | _ => .error (.malformedUnit unit.1)

/-- A member of the files that only an operator may change. -/
def readSource (file : Text × Json) : Except PolicyError (Sigma fun _ : Text => Text) :=
  match string? file.2 with
  | some source => .ok ⟨file.1, source⟩
  | none => .error .operatorOnly

/-- The two members that are objects. -/
def readObjects (payload : List (Text × Json)) :
    Except PolicyError (List (Text × Json) × List (Text × Json)) :=
  match payload.lookup (text "units"), payload.lookup (text "operator_only") with
  | some (.obj units), some (.obj operatorOnly) => .ok (units, operatorOnly)
  | _, _ => .error .notObjects

/-- The payload, which has the version that is known: `True` and `1.0` equal it. -/
def readPayload (maxDepth : ℕ) (raw : Text) : Except PolicyError (List (Text × Json)) :=
  match loadsStr maxDepth raw with
  | .error .jsonDecodeError => .error .notJson
  | .error e => .error (.loads e)
  | .ok (.obj payload) =>
    let version := getD payload "schema_version" .null
    match version.key with
    | .ok key => if key = .number (.finite 1) then .ok payload else .error (.schemaVersion version)
    | .error _ => .error (.schemaVersion version)
  | .ok _ => .error .notObject

/-- `parse_policy`. -/
def parsePolicy (maxDepth : ℕ) (raw : Text) : Except PolicyError StoredPolicy := do
  let payload ← readPayload maxDepth raw
  let project ← nonEmpty payload "project"
  let scaffoldDir ← nonEmpty payload "scaffold_dir"
  let (unitsRaw, operatorRaw) ← readObjects payload
  let units ← unitsRaw.mapM readGrant
  let operatorOnly ← operatorRaw.mapM readSource
  let users ← stringsOf payload "users"
  let groups ← stringsOf payload "groups"
  let execPrefixes ← stringsOf payload "exec_prefixes"
  let readPaths ← stringsOf payload "read_paths"
  let directories ← stringsOf payload "directories"
  pure {
    project
    scaffoldDir
    users := users.toFinset
    groups := groups.toFinset
    execPrefixes
    readPaths := readPaths.toFinset
    directories := directories.toFinset
    units := units.toAList
    operatorOnly := operatorOnly.toAList }

/-! ## What is written is plain -/

/-- In no string of the policy a high surrogate stands before a low one. -/
structure StoredPolicy.AllApart (policy : StoredPolicy) : Prop where
  project : Apart policy.project
  scaffoldDir : Apart policy.scaffoldDir
  users : ∀ s ∈ policy.users, Apart s
  groups : ∀ s ∈ policy.groups, Apart s
  execPrefixes : ∀ s ∈ policy.execPrefixes, Apart s
  readPaths : ∀ s ∈ policy.readPaths, Apart s
  directories : ∀ s ∈ policy.directories, Apart s
  units : ∀ e ∈ policy.units.entries, Apart e.1 ∧ Apart e.2.source
  operatorOnly : ∀ e ∈ policy.operatorOnly.entries, Apart e.1 ∧ Apart e.2

variable {policy : StoredPolicy} {maxDepth : ℕ} {strings : List Text}

/-- Sorting a dict's entries loses none. -/
theorem sortedEntries_perm {β : Type} (d : AList fun _ : Text => β) :
    (sortedEntries d).Perm d.entries :=
  List.perm_insertionSort _ _

/-- The keys that are written are all different. -/
theorem keys_sortedEntries {β : Type} (d : AList fun _ : Text => β)
    (write : (Sigma fun _ : Text => β) → Json) :
    (((sortedEntries d).map fun e => (e.1, write e)).map Prod.fst).Nodup := by
  rw [List.map_map]
  exact ((sortedEntries_perm d).map Sigma.fst).nodup_iff.mpr d.nodupKeys

/-- A list of texts without halves next to each other is plain. -/
theorem plain_stringsJson (h : ∀ s ∈ strings, Apart s) : Plain (stringsJson strings) := by
  refine plainItems fun v hv => ?_
  obtain ⟨s, hs, rfl⟩ := List.mem_map.mp hv
  exact h s hs

/-- A grant without halves next to each other is plain. -/
theorem plain_grant {grant : StoredGrant} (h : Apart grant.source) : Plain grant.toJson := by
  have hname : Apart grant.action.name := by
    cases grant.action <;> exact apart_text _
  exact ⟨of_decide_eq_true rfl, apart_text _, h, apart_text _, hname, trivial⟩

/-- A dict is plain when its keys and what is written for them are. -/
theorem plain_entries {β : Type} (d : AList fun _ : Text => β)
    (write : (Sigma fun _ : Text => β) → Json)
    (h : ∀ e ∈ d.entries, Apart e.1 ∧ Plain (write e)) :
    Plain (.obj ((sortedEntries d).map fun e => (e.1, write e))) := by
  refine ⟨keys_sortedEntries d write, plainMembers_iff.mpr fun member hmember => ?_⟩
  obtain ⟨e, he, rfl⟩ := List.mem_map.mp hmember
  exact h e ((sortedEntries_perm d).mem_iff.mp he)

/-- The members of a policy file have different keys. -/
theorem keys_members (policy : StoredPolicy) : (policy.members.map Prod.fst).Nodup := by
  have hkeys : policy.members.map Prod.fst = ["schema_version", "project", "scaffold_dir", "users",
      "groups", "exec_prefixes", "read_paths", "directories", "units", "operator_only"].map text := rfl
  rw [hkeys]
  decide

/-- The payload of a policy without halves next to each other is plain. -/
theorem plain_payload (h : policy.AllApart) : Plain (.obj policy.members) := by
  have hsorted : ∀ s : Finset Text, (∀ t ∈ s, Apart t) → Plain (stringsJson (s.sort (· ≤ ·))) := by
    intro s hs
    exact plain_stringsJson fun t ht => hs t (Finset.mem_sort (· ≤ ·) |>.mp ht)
  have hexec : Plain (stringsJson (policy.execPrefixes.insertionSort (· ≤ ·))) :=
    plain_stringsJson fun t ht => h.execPrefixes t ((List.perm_insertionSort _ _).mem_iff.mp ht)
  have hunits := plain_entries policy.units (fun e => e.2.toJson) fun e he =>
    ⟨(h.units e he).1, plain_grant (h.units e he).2⟩
  have hoperator := plain_entries policy.operatorOnly (fun e => .str e.2) h.operatorOnly
  have hversion : Plain (.int 1) := show digits 1 ≤ maxStrDigits by decide
  exact ⟨keys_members policy, apart_text _, hversion, apart_text _, h.project,
    apart_text _, h.scaffoldDir, apart_text _, hsorted _ h.users, apart_text _, hsorted _ h.groups,
    apart_text _, hexec, apart_text _, hsorted _ h.readPaths, apart_text _, hsorted _ h.directories,
    apart_text _, hunits, apart_text _, hoperator, trivial⟩

/-- A list of texts is nested once. -/
theorem depth_stringsJson (strings : List Text) : depth (stringsJson strings) ≤ 1 := by
  refine Nat.succ_le_succ (depthItems_le fun v hv => ?_)
  obtain ⟨s, -, rfl⟩ := List.mem_map.mp hv
  exact Nat.le_refl 0

/-- A dict is nested once more than its values. -/
theorem depth_entries {β : Type} (d : AList fun _ : Text => β) {n : ℕ}
    {write : (Sigma fun _ : Text => β) → Json} (h : ∀ e, depth (write e) ≤ n) :
    depth (.obj ((sortedEntries d).map fun e => (e.1, write e))) ≤ n + 1 := by
  refine Nat.succ_le_succ (depthMembers_le_iff.mpr fun member hmember => ?_)
  obtain ⟨e, -, rfl⟩ := List.mem_map.mp hmember
  exact h e

/-- The units are objects in an object of the payload. -/
theorem depth_payload (policy : StoredPolicy) : depth (.obj policy.members) ≤ 3 := by
  have hstrings : ∀ strings, depth (stringsJson strings) ≤ 2 := fun strings =>
    (depth_stringsJson strings).trans (by decide)
  have hunits := depth_entries policy.units (n := 1) fun e => Nat.le_refl (depth e.2.toJson)
  have hoperator := depth_entries policy.operatorOnly (n := 0) fun e =>
    Nat.le_refl (depth (.str e.2))
  refine Nat.succ_le_succ (depthMembers_le_iff.mpr ?_)
  unfold StoredPolicy.members
  simp only [List.forall_mem_cons]
  exact ⟨Nat.zero_le _, Nat.zero_le _, Nat.zero_le _, hstrings _, hstrings _, hstrings _, hstrings _,
    hstrings _, hunits, hoperator.trans (by decide), fun _ hnil => absurd hnil List.not_mem_nil⟩

/-! ## The payload is read as the policy -/

/-- The policies are the same, but for the order of what a list or a `dict` holds. -/
structure SamePolicy (policy policy' : StoredPolicy) : Prop where
  project : policy'.project = policy.project
  scaffoldDir : policy'.scaffoldDir = policy.scaffoldDir
  users : policy'.users = policy.users
  groups : policy'.groups = policy.groups
  execPrefixes : policy'.execPrefixes.Perm policy.execPrefixes
  readPaths : policy'.readPaths = policy.readPaths
  directories : policy'.directories = policy.directories
  units : ∀ name, policy'.units.lookup name = policy.units.lookup name
  operatorOnly : ∀ dest, policy'.operatorOnly.lookup dest = policy.operatorOnly.lookup dest

/-- Sorting keys leaves a list of texts as it is. -/
theorem sortKeys_stringsJson (strings : List Text) :
    sortKeys (stringsJson strings) = stringsJson strings := by
  unfold stringsJson
  rw [sortKeys, sortItems_eq, List.map_map]
  rfl

/-- Texts are read back from a list of texts. -/
theorem mapM_string (strings : List Text) : (strings.map Json.str).mapM string? = some strings := by
  induction strings with
  | nil => rfl
  | cons s strings ih =>
    rw [List.map_cons, List.mapM_cons, ih]
    rfl

/-- An action is read back from its name. -/
theorem ofName_name (action : Action) : Action.ofName? action.name = some action := by
  cases action <;> decide

/-- A grant is read back, whatever the order of its members. -/
theorem readGrant_toJson (e : Sigma fun _ : Text => StoredGrant) :
    readGrant (e.1, sortKeys e.2.toJson) = .ok e := by
  obtain ⟨name, source, action⟩ := e
  -- The keys are distinct, so sorting them changes no lookup.
  have hkeys : ([(text "source", Json.str source), (text "action", .str action.name)].map
      Prod.fst).Nodup := of_decide_eq_true rfl
  have hsource : ([(text "source", Json.str source), (text "action", .str action.name)]).lookup
      (text "source") = some (.str source) := rfl
  have haction : ([(text "source", Json.str source), (text "action", .str action.name)]).lookup
      (text "action") = some (.str action.name) := rfl
  unfold StoredGrant.toJson readGrant getD
  rw [sortKeys_obj]
  dsimp only
  rw [lookup_sortedMembers hkeys, lookup_sortedMembers hkeys, hsource, haction]
  show (match Action.ofName? action.name with
    | some action => .ok ⟨name, source, action⟩
    | none => .error (.malformedUnit name) :
      Except PolicyError (Sigma fun _ : Text => StoredGrant)) = _
  rw [ofName_name]

/-- A source is read back from its text. -/
theorem readSource_str (e : Sigma fun _ : Text => Text) :
    readSource (e.1, sortKeys (.str e.2)) = .ok e := rfl

/-- The entries of a `dict` that was written with sorted keys, read back. -/
theorem mapM_entries {β : Type} (d : AList fun _ : Text => β)
    (write : (Sigma fun _ : Text => β) → Json)
    (read : Text × Json → Except PolicyError (Sigma fun _ : Text => β))
    (h : ∀ e, read (e.1, sortKeys (write e)) = .ok e) :
    ∃ entries, (sortedMembers ((sortedEntries d).map fun e => (e.1, write e))).mapM read =
      .ok entries ∧ ∀ key, entries.toAList.lookup key = d.lookup key := by
  have hperm := sortedMembers_perm ((sortedEntries d).map fun e => (e.1, write e))
  rw [List.map_map] at hperm
  obtain ⟨entries, hread, hentries⟩ := mapM_ok_of_perm h hperm
  have hall := hentries.trans (sortedEntries_perm d)
  refine ⟨entries, hread, fun key => ?_⟩
  rw [AList.lookup_to_alist]
  exact List.perm_dlookup key ((List.perm_nodupKeys hall).mpr d.nodupKeys) hall

/-- What a key of the payload is read as. -/
theorem lookup_payload {key : Text} {v : Json} (h : policy.members.lookup key = some v) :
    (sortedMembers policy.members).lookup key = some (sortKeys v) := by
  rw [lookup_sortedMembers (keys_members policy), h]
  rfl

/-- A list of texts is read back from the payload. -/
theorem stringsOf_payload {key : String} {strings : List Text}
    (h : policy.members.lookup (text key) = some (stringsJson strings)) :
    stringsOf (sortedMembers policy.members) key = .ok strings := by
  unfold stringsOf
  rw [lookup_payload h, sortKeys_stringsJson]
  show (match (strings.map Json.str).mapM string? with
    | some strings => .ok strings
    | none => .error (.notStrings key) : Except PolicyError (List Text)) = _
  rw [mapM_string]

/-- A text that is not empty is read back from the payload. -/
theorem nonEmpty_payload {key : String} {s : Text} (hs : s ≠ [])
    (h : policy.members.lookup (text key) = some (.str s)) :
    nonEmpty (sortedMembers policy.members) key = .ok s := by
  obtain ⟨c, s, rfl⟩ := List.exists_cons_of_ne_nil hs
  unfold nonEmpty
  rw [lookup_payload h]
  rfl

/-- What is dumped reads back with its keys sorted. -/
theorem readPayload_dump (hapart : policy.AllApart) (hdepth : 3 ≤ maxDepth) :
    readPayload maxDepth (dumpPolicy policy) = .ok (sortedMembers policy.members) := by
  have hloads := loadsStr_dumpsSorted_newline (plain_payload hapart)
    ((depth_payload policy).trans hdepth)
  have hversion : getD (sortedMembers policy.members) "schema_version" .null = .int 1 := by
    unfold getD
    rw [lookup_payload (show policy.members.lookup _ = some (.int 1) from rfl)]
    rfl
  unfold readPayload dumpPolicy
  rw [hloads, sortKeys_obj]
  dsimp only
  rw [hversion]
  exact if_pos rfl

/-- A policy that is written is read back. -/
theorem parse_dump_same (hproject : policy.project ≠ []) (hdir : policy.scaffoldDir ≠ [])
    (hapart : policy.AllApart) (hdepth : 3 ≤ maxDepth) :
    ∃ policy', parsePolicy maxDepth (dumpPolicy policy) = .ok policy' ∧
      SamePolicy policy policy' := by
  -- The two dicts are read back entry by entry.
  obtain ⟨units, hunits, hlookup⟩ := mapM_entries policy.units (fun e => e.2.toJson) readGrant
    readGrant_toJson
  obtain ⟨operatorOnly, hoperator, hlookup'⟩ := mapM_entries policy.operatorOnly
    (fun e => .str e.2) readSource readSource_str
  have hobjects : readObjects (sortedMembers policy.members) =
      .ok (sortedMembers ((sortedEntries policy.units).map fun e => (e.1, e.2.toJson)),
        sortedMembers ((sortedEntries policy.operatorOnly).map fun e => (e.1, .str e.2))) := by
    unfold readObjects
    rw [lookup_payload (show policy.members.lookup (text "units") = some (.obj _) from rfl),
      lookup_payload (show policy.members.lookup (text "operator_only") = some (.obj _) from rfl),
      sortKeys_obj, sortKeys_obj]
  refine ⟨{ project := policy.project
            scaffoldDir := policy.scaffoldDir
            users := (policy.users.sort (· ≤ ·)).toFinset
            groups := (policy.groups.sort (· ≤ ·)).toFinset
            execPrefixes := policy.execPrefixes.insertionSort (· ≤ ·)
            readPaths := (policy.readPaths.sort (· ≤ ·)).toFinset
            directories := (policy.directories.sort (· ≤ ·)).toFinset
            units := units.toAList
            operatorOnly := operatorOnly.toAList }, ?_, ?_⟩
  -- Then the fields, in the order they are read.
  · unfold parsePolicy
    refine bind_ok_iff.mpr ⟨_, readPayload_dump hapart hdepth, ?_⟩
    refine bind_ok_iff.mpr ⟨_, nonEmpty_payload hproject rfl, ?_⟩
    refine bind_ok_iff.mpr ⟨_, nonEmpty_payload hdir rfl, ?_⟩
    refine bind_ok_iff.mpr ⟨_, hobjects, ?_⟩
    refine bind_ok_iff.mpr ⟨_, hunits, ?_⟩
    refine bind_ok_iff.mpr ⟨_, hoperator, ?_⟩
    refine bind_ok_iff.mpr ⟨_, stringsOf_payload rfl, ?_⟩
    refine bind_ok_iff.mpr ⟨_, stringsOf_payload rfl, ?_⟩
    refine bind_ok_iff.mpr ⟨_, stringsOf_payload rfl, ?_⟩
    refine bind_ok_iff.mpr ⟨_, stringsOf_payload rfl, ?_⟩
    exact bind_ok_iff.mpr ⟨_, stringsOf_payload rfl, rfl⟩
  · exact ⟨rfl, rfl, Finset.sort_toFinset _ _, Finset.sort_toFinset _ _,
      List.perm_insertionSort _ _, Finset.sort_toFinset _ _, Finset.sort_toFinset _ _, hlookup,
      hlookup'⟩

/-! ## Units are judged alike -/

/-- The strings without surrogates. -/
def readable (strings : List Text) : List Str := strings.filterMap (·.mapM charOf?)

/-- The policy as `validate_unit` reads it: a string with a surrogate matches nothing in a unit file,
which has none. -/
def StoredPolicy.forUnits (policy : StoredPolicy) : RootPolicy where
  project := (policy.project.mapM charOf?).getD []
  scaffoldDir := (policy.scaffoldDir.mapM charOf?).getD []
  users := readable (policy.users.sort (· ≤ ·))
  groups := readable (policy.groups.sort (· ≤ ·))
  execPrefixes := readable policy.execPrefixes
  readPaths := readable (policy.readPaths.sort (· ≤ ·))
  directories := readable (policy.directories.sort (· ≤ ·))

/-- The same policy lists the same for the units. -/
theorem SamePolicy.listsSame {policy' : StoredPolicy} (h : SamePolicy policy policy') :
    ListsSame policy.forUnits policy'.forUnits := by
  have hset : ∀ {s s' : Finset Text}, s' = s →
      ∀ t, t ∈ readable (s'.sort (· ≤ ·)) ↔ t ∈ readable (s.sort (· ≤ ·)) := by
    rintro s s' rfl t
    exact Iff.rfl
  exact ⟨hset h.users, hset h.groups, fun _ => (h.execPrefixes.filterMap _).mem_iff,
    hset h.readPaths, hset h.directories⟩

/-- What is read as not empty is not empty. -/
theorem nonEmpty_ok {payload : List (Text × Json)} {key : String} {s : Text}
    (h : nonEmpty payload key = .ok s) : s ≠ [] := by
  unfold nonEmpty at h
  split at h
  · rw [← Except.ok.inj h]
    exact List.cons_ne_nil _ _
  · cases h

/-- A policy that was read has a project and a directory. -/
theorem nonEmpty_of_parse {raw : Text} (h : parsePolicy maxDepth raw = .ok policy) :
    policy.project ≠ [] ∧ policy.scaffoldDir ≠ [] := by
  unfold parsePolicy at h
  -- The fields are read in this order.
  obtain ⟨payload, -, h⟩ := bind_ok_iff.mp h
  obtain ⟨project, hproject, h⟩ := bind_ok_iff.mp h
  obtain ⟨scaffoldDir, hdir, h⟩ := bind_ok_iff.mp h
  obtain ⟨objects, -, h⟩ := bind_ok_iff.mp h
  obtain ⟨units, -, h⟩ := bind_ok_iff.mp h
  obtain ⟨operatorOnly, -, h⟩ := bind_ok_iff.mp h
  obtain ⟨users, -, h⟩ := bind_ok_iff.mp h
  obtain ⟨groups, -, h⟩ := bind_ok_iff.mp h
  obtain ⟨execPrefixes, -, h⟩ := bind_ok_iff.mp h
  obtain ⟨readPaths, -, h⟩ := bind_ok_iff.mp h
  obtain ⟨directories, -, h⟩ := bind_ok_iff.mp h
  obtain rfl := Except.ok.inj h
  exact ⟨nonEmpty_ok hproject, nonEmpty_ok hdir⟩

/-- A policy that `parse_policy` returned, or that has a project and a directory, is read back when it
is written, if no string of it has two halves of a character; and units are judged by both alike. -/
theorem parse_dump (h : (∃ raw, parsePolicy maxDepth raw = .ok policy) ∨
      policy.project ≠ [] ∧ policy.scaffoldDir ≠ [])
    (hapart : policy.AllApart) (hdepth : 3 ≤ maxDepth) :
    ∃ policy', parsePolicy maxDepth (dumpPolicy policy) = .ok policy' ∧ SamePolicy policy policy' ∧
      ∀ name text, validateUnit name text policy'.forUnits =
        validateUnit name text policy.forUnits := by
  have hnonempty : policy.project ≠ [] ∧ policy.scaffoldDir ≠ [] := by
    obtain ⟨raw, hraw⟩ | hnonempty := h
    · exact nonEmpty_of_parse hraw
    · exact hnonempty
  obtain ⟨policy', hparse, hsame⟩ := parse_dump_same hnonempty.1 hnonempty.2 hapart hdepth
  exact ⟨policy', hparse, hsame, validateUnit_congr hsame.listsSame⟩

/-- A policy of that project that lists two executables. -/
def barePolicy (project : Text) : StoredPolicy where
  project
  scaffoldDir := text "/srv"
  users := ∅
  groups := ∅
  execPrefixes := [text "/usr/bin/app", text "/opt/app/"]
  readPaths := ∅
  directories := ∅
  units := ∅
  operatorOnly := ∅

/-- A bare policy has no halves next to each other when its project has none. -/
theorem allApart_barePolicy {project : Text} (h : Apart project) : (barePolicy project).AllApart where
  project := h
  scaffoldDir := apart_text _
  users := by simp [barePolicy]
  groups := by simp [barePolicy]
  execPrefixes := by simp [barePolicy, apart_text]
  readPaths := by simp [barePolicy]
  directories := by simp [barePolicy]
  units := by simp [barePolicy]
  operatorOnly := by simp [barePolicy]

/-- The bare policy of `app` is read back and judges every unit alike. -/
theorem parse_dump_bare : ∃ policy',
    parsePolicy 3 (dumpPolicy (barePolicy (text "app"))) = .ok policy' ∧
      SamePolicy (barePolicy (text "app")) policy' ∧
      ∀ name text', validateUnit name text' policy'.forUnits =
        validateUnit name text' (barePolicy (text "app")).forUnits :=
  parse_dump (.inr ⟨by decide, by decide⟩) (allApart_barePolicy (apart_text _)) (Nat.le_refl 3)

set_option maxRecDepth 100000 in
/-- Two halves of a character are read back as the character. -/
theorem joins_halves : (barePolicy [point 0xD83D, point 0xDE00]).project ≠ [] ∧
    (barePolicy [point 0xD83D, point 0xDE00]).scaffoldDir ≠ [] ∧
    ∃ policy', parsePolicy 3 (dumpPolicy (barePolicy [point 0xD83D, point 0xDE00])) = .ok policy' ∧
      policy'.project = [point 0x1F600] := by
  have hmembers : ∀ project, (barePolicy project).members =
      [(text "schema_version", .int 1), (text "project", .str project),
        (text "scaffold_dir", .str (text "/srv")), (text "users", .arr []),
        (text "groups", .arr []),
        (text "exec_prefixes", .arr [.str (text "/opt/app/"), .str (text "/usr/bin/app")]),
        (text "read_paths", .arr []), (text "directories", .arr []), (text "units", .obj []),
        (text "operator_only", .obj [])] := by
    intro project
    unfold StoredPolicy.members barePolicy
    simp only [Finset.sort_empty]
    rfl
  -- The two halves are written as the character is.
  have hwritten : dumpPolicy (barePolicy [point 0xD83D, point 0xDE00]) =
      dumpPolicy (barePolicy [point 0x1F600]) := by
    unfold dumpPolicy
    rw [hmembers, hmembers]
    decide
  have hapart : Apart [point 0x1F600] := List.isChain_singleton _
  refine ⟨by decide, by decide, ?_⟩
  rw [hwritten]
  obtain ⟨policy', hparse, hsame⟩ := parse_dump_same (show [point 0x1F600] ≠ [] by decide)
    (show (barePolicy [point 0x1F600]).scaffoldDir ≠ [] by decide) (allApart_barePolicy hapart)
    (Nat.le_refl 3)
  exact ⟨policy', hparse, hsame.project⟩

end Fraisier.Unit
