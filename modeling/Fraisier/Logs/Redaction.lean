import Fraisier.Lib.Fallible
import Fraisier.Lib.JsonValue
import Fraisier.Lib.Lookup

/-!
# What the logger redacts

`ContextualLogger._log`: the contexts of the stack are merged, the keyword arguments without an
underscore come over them, and `_redact_dict` replaces what stands under a key that contains one of
the redact words. It goes into a `dict` under another key, and into nothing else: a list, a tuple and
what stands under one of the safe keys are logged as they are, and a key that is no `str` has no
`lower`.

`blank x` is a value with `x` under each sensitive key, so two values differ under sensitive keys
only when they are the same with a blank there. Redacting does not see the blanks where it has
reached every sensitive key (`redactDict_blank`); and where a blank can be told from another in what
is logged, there is a key that it did not reach (`reaches_of_blank`). `leaks_nothing_iff` lifts both
through the merging.
-/

namespace Fraisier.Logs

open Fraisier.Lib Unicode
open Fraisier.Lib.Json (Key Number UseError)

/-! ## Values -/

/-- What is logged: values as JSON has them, and tuples. The keys of a `dict` are distinct. -/
inductive Value
  | none
  | bool (b : Bool)
  | int (n : ℤ)
  | float (x : Number)
  | str (s : Text)
  | list (items : List Value)
  | tuple (items : List Value)
  | dict (members : List (Key × Value))

/-- The members of a `dict`, in their order. -/
abbrev Members := List (Key × Value)

/-- What the interpreter decides. -/
structure Interpreter where
  /-- `str.lower`. -/
  lower : Text → Text
  /-- How many calls of `_redact_dict` within one another its stack allows. -/
  frames : ℕ

/-! ## Logging -/

/-- `ContextualLogger`. -/
structure Logger where
  redactKeys : List Text
  contextStack : List Members

/-- The redact words of a logger that is given none. -/
def defaultRedactKeys : List Text :=
  ["password", "api_key", "secret", "token", "auth", "key", "credential"].map text

/-- `_safe_keys`. -/
def safeKeys : List Text := ["primary_key", "foreign_key", "sort_key", "cache_key"].map text

/-- `ContextualLogger(name, redact_keys=…)`. -/
def Logger.new (redactKeys : Option (List Text)) : Logger where
  redactKeys := if (redactKeys.getD []).isEmpty then defaultRedactKeys else redactKeys.getD []
  contextStack := []

/-- `merged.update(members)`. -/
def update (merged members : Members) : Members :=
  members.foldl (fun merged member => put member.1 member.2 merged) merged

/-- `_get_context`. -/
def Logger.getContext (logger : Logger) : Members := logger.contextStack.foldl update []

/-- `s in self._safe_keys`, of a key in lower case. -/
def isSafe (s : Text) : Bool := safeKeys.contains s

/-- `"***REDACTED***"`. -/
def redacted : Value := .str (text "***REDACTED***")

section Redact

variable (redactKeys : List Text) (lower : Text → Text)

/-- `any(word in s for word in self.redact_keys)`, of a key in lower case. -/
def containsWord (s : Text) : Bool := redactKeys.any fun word => decide (word <:+: s)

/-- One pass of the loop of `_redact_dict`; `nested` is the call for a `dict`. -/
def redactMember (nested : Members → Except UseError Members) :
    Key × Value → Except UseError (Key × Value)
  | (.str key, value) =>
    if isSafe (lower key) then .ok (.str key, value)
    else if containsWord redactKeys (lower key) then .ok (.str key, redacted)
    else match value with
      | .dict members => (nested members).map fun members => (.str key, .dict members)
      | value => .ok (.str key, value)
  | _ => .error .attributeError

/-- `_redact_dict`, in so many frames. -/
def redactDict : ℕ → Members → Except UseError Members
  | 0, _ => .error .recursionError
  | frames + 1, members => members.mapM (redactMember redactKeys lower (redactDict frames))

end Redact

/-- Keyword arguments. -/
abbrev Kwargs := List (Text × Value)

/-- A keyword argument as a member of the context. -/
def member (entry : Text × Value) : Key × Value := (.str entry.1, entry.2)

/-- `key.startswith("_")`. -/
def isPrivate (key : Text) : Bool := Json.startsWith key "_"

/-- The context of a record before it is redacted. -/
def Logger.mergedContext (logger : Logger) (kwargs : Kwargs) : Members :=
  update logger.getContext ((kwargs.filter (!isPrivate ·.1)).map member)

/-- What the handlers get, less `extra_fields`, which is empty. -/
structure Record where
  level : String
  message : Text
  context : Members
  traceId : Option Value
  excInfo : Value

/-- `_log`. -/
def Logger.log (logger : Logger) (py : Interpreter) (level : String) (message : Text)
    (kwargs : Kwargs) : Except UseError Record := do
  let safeContext ←
    redactDict logger.redactKeys py.lower py.frames (logger.mergedContext kwargs)
  let kwargs := kwargs.filter (isPrivate ·.1)
  pure
    { level, message
      context := safeContext
      traceId := kwargs.lookup (text "_trace_id")
      excInfo := (kwargs.lookup (text "_exc_info")).getD (.bool false) }

/-! ## Sensitive keys -/

/-- The key contains one of the redact words, as they are or whatever the case of either, and is no
safe one. -/
def sensitive (redactKeys : List Text) (lower : Text → Text) : Key → Bool
  | .str key => !isSafe (lower key) &&
    redactKeys.any fun word => decide (word <:+: key) || decide (lower word <:+: lower key)
  | _ => false

section Blank

variable (sensitive : Key → Bool) (x : Value)

mutual

/-- The value with `x` under each sensitive key at any depth. -/
def blank : Value → Value
  | .list items => .list (blankItems items)
  | .tuple items => .tuple (blankItems items)
  | .dict members => .dict (blankMembers members)
  | v => v

/-- The items of a list or a tuple. -/
def blankItems : List Value → List Value
  | [] => []
  | v :: items => blank v :: blankItems items

/-- The members of a `dict`. -/
def blankMembers : Members → Members
  | [] => []
  | (key, v) :: members => (key, if sensitive key then x else blank v) :: blankMembers members

end

end Blank

mutual

/-- The keys of the value's dicts, at any depth. -/
def keys : Value → List Key
  | .list items => keysItems items
  | .tuple items => keysItems items
  | .dict members => keysMembers members
  | _ => []

/-- The keys in the items of a list or a tuple. -/
def keysItems : List Value → List Key
  | [] => []
  | v :: items => keys v ++ keysItems items

/-- The keys of a `dict`, and those below them. -/
def keysMembers : Members → List Key
  | [] => []
  | (key, v) :: members => key :: (keys v ++ keysMembers members)

end

/-- The value has no sensitive key. -/
def Clean (sensitive : Key → Bool) (v : Value) : Prop := ∀ key ∈ keys v, sensitive key = false

/-- Two calls differ under sensitive keys only. -/
structure Alike (py : Interpreter) (logger logger' : Logger) (kwargs kwargs' : Kwargs) : Prop where
  redactKeys : logger'.redactKeys = logger.redactKeys
  stack : logger'.contextStack.map (blankMembers (sensitive logger.redactKeys py.lower) .none) =
    logger.contextStack.map (blankMembers (sensitive logger.redactKeys py.lower) .none)
  kwargs : blankMembers (sensitive logger.redactKeys py.lower) .none (kwargs'.map member) =
    blankMembers (sensitive logger.redactKeys py.lower) .none (kwargs.map member)

/-- The call is logged, and so is every call that differs from it under sensitive keys only, with the
same context. -/
def LeaksNothing (py : Interpreter) (logger : Logger) (kwargs : Kwargs) : Prop :=
  ∀ level message, ∃ record, logger.log py level message kwargs = .ok record ∧
    ∀ logger' kwargs', Alike py logger logger' kwargs kwargs' →
      ∃ record', logger'.log py level message kwargs' = .ok record' ∧
        record'.context = record.context

section Reaches

variable (redactKeys : List Text) (lower : Text → Text)

/-- The member's key is a `str`. Under a safe one there is no sensitive key, and nothing is asked
under one that is redacted. Any other is not sensitive, and has a `dict` that is reached or a value
without sensitive keys. -/
def ReachesMember (nested : Members → Prop) : Key × Value → Prop
  | (.str key, value) =>
    if isSafe (lower key) then Clean (sensitive redactKeys lower) value
    else if containsWord redactKeys (lower key) then True
    else sensitive redactKeys lower (.str key) = false ∧ match value with
      | .dict members => nested members
      | value => Clean (sensitive redactKeys lower) value
  | _ => False

/-- `_redact_dict` comes to every sensitive key in so many frames. -/
def Reaches : ℕ → Members → Prop
  | 0, _ => False
  | frames + 1, members => ∀ m ∈ members, ReachesMember redactKeys lower (Reaches frames) m

end Reaches

/-- Redaction reaches every member of the dict it is given. -/
theorem Reaches.members {redactKeys : List Text} {lower : Text → Text} {frames : ℕ}
    {members : Members} (h : Reaches redactKeys lower frames members) :
    ∃ nested, ∀ m ∈ members, ReachesMember redactKeys lower nested m := by
  cases frames with
  | zero => exact h.elim
  | succ frames => exact ⟨_, h⟩

/-! ## Blanks -/

section

variable {sensitive : Key → Bool} {x y : Value}

/-- Blanking the members is blanking each. -/
theorem blankMembers_eq_map (members : Members) : blankMembers sensitive x members =
    members.map fun m => (m.1, if sensitive m.1 then x else blank sensitive x m.2) := by
  induction members with
  | nil => rfl
  | cons m members ih => rw [blankMembers, ih, List.map_cons]

mutual

/-- A value without sensitive keys has no blanks. -/
theorem blank_of_clean : ∀ {v : Value}, Clean sensitive v → blank sensitive x v = v
  | .none, _ | .bool _, _ | .int _, _ | .float _, _ | .str _, _ => rfl
  | .list _, h => congrArg Value.list (blankItems_of_clean h)
  | .tuple _, h => congrArg Value.tuple (blankItems_of_clean h)
  | .dict _, h => congrArg Value.dict (blankMembers_of_clean h)

/-- Items without a sensitive key stay as they are. -/
theorem blankItems_of_clean : ∀ {items : List Value}, (∀ key ∈ keysItems items, sensitive key = false) →
    blankItems sensitive x items = items
  | [], _ => rfl
  | v :: items, h => by
    rw [keysItems, List.forall_mem_append] at h
    rw [blankItems, blank_of_clean h.1, blankItems_of_clean h.2]

/-- Members without a sensitive key stay as they are. -/
theorem blankMembers_of_clean : ∀ {members : Members},
    (∀ key ∈ keysMembers members, sensitive key = false) →
      blankMembers sensitive x members = members
  | [], _ => rfl
  | (key, v) :: members, h => by
    rw [keysMembers, List.forall_mem_cons, List.forall_mem_append] at h
    rw [blankMembers, h.1, blank_of_clean h.2.1, blankMembers_of_clean h.2.2]
    rfl

end

mutual

/-- A blank is put over a blank. -/
theorem blank_blank : ∀ v : Value, blank sensitive y (blank sensitive x v) = blank sensitive y v
  | .none | .bool _ | .int _ | .float _ | .str _ => rfl
  | .list items => congrArg Value.list (blankItems_blankItems items)
  | .tuple items => congrArg Value.tuple (blankItems_blankItems items)
  | .dict members => congrArg Value.dict (blankMembers_blankMembers members)

/-- Items are blanked once and for all. -/
theorem blankItems_blankItems : ∀ items : List Value,
    blankItems sensitive y (blankItems sensitive x items) = blankItems sensitive y items
  | [] => rfl
  | v :: items => by
    simp only [blankItems, blank_blank v, blankItems_blankItems items]

/-- Members are blanked once and for all. -/
theorem blankMembers_blankMembers : ∀ members : Members,
    blankMembers sensitive y (blankMembers sensitive x members) = blankMembers sensitive y members
  | [] => rfl
  | (key, v) :: members => by
    cases hkey : sensitive key <;>
      simp [blankMembers, hkey, blank_blank v, blankMembers_blankMembers members]

end

mutual

/-- Where one blank cannot be told from another there is none. -/
theorem clean_of_blank (hxy : x ≠ y) : ∀ {v : Value},
    blank sensitive x v = blank sensitive y v → Clean sensitive v
  | .none, _ | .bool _, _ | .int _, _ | .float _, _ | .str _, _ => nofun
  | .list _, h => clean_of_blankItems hxy (Value.list.inj h)
  | .tuple _, h => clean_of_blankItems hxy (Value.tuple.inj h)
  | .dict _, h => clean_of_blankMembers hxy (Value.dict.inj h)

/-- Items that do not show what is blanked have no sensitive key. -/
theorem clean_of_blankItems (hxy : x ≠ y) : ∀ {items : List Value},
    blankItems sensitive x items = blankItems sensitive y items →
      ∀ key ∈ keysItems items, sensitive key = false
  | [], _ => nofun
  | v :: items, h => by
    obtain ⟨hhead, htail⟩ := List.cons.inj h
    rw [keysItems, List.forall_mem_append]
    exact ⟨clean_of_blank hxy hhead, clean_of_blankItems hxy htail⟩

/-- Members that do not show what is blanked have no sensitive key. -/
theorem clean_of_blankMembers (hxy : x ≠ y) : ∀ {members : Members},
    blankMembers sensitive x members = blankMembers sensitive y members →
      ∀ key ∈ keysMembers members, sensitive key = false
  | [], _ => nofun
  | (key, v) :: members, h => by
    obtain ⟨hhead, htail⟩ := List.cons.inj h
    have hvalue := (Prod.mk.inj hhead).2
    -- The value of a sensitive key would be blanked.
    have hkey : sensitive key = false := by
      cases hkey : sensitive key with
      | false => rfl
      | true =>
        rw [hkey] at hvalue
        exact absurd hvalue hxy
    rw [hkey] at hvalue
    rw [keysMembers, List.forall_mem_cons, List.forall_mem_append]
    exact ⟨hkey, clean_of_blank hxy hvalue, clean_of_blankMembers hxy htail⟩

end

/-- `None` is not `True`. -/
theorem none_ne_true : Value.none ≠ .bool true := nofun

/-- A value that is the same under blanks as one without sensitive keys is that value. -/
theorem eq_of_blank_eq {v v' : Value} (hclean : Clean sensitive v)
    (h : blank sensitive .none v' = blank sensitive .none v) : v' = v := by
  rw [blank_of_clean hclean] at h
  have htrue : blank sensitive (.bool true) v' = v := by
    rw [← blank_blank (x := .none), h, blank_of_clean hclean]
  have hclean' := clean_of_blank none_ne_true (h.trans htrue.symm)
  rw [← h, blank_of_clean hclean']

end

/-! ## Redacting -/

section

variable {redactKeys : List Text} {lower : Text → Text}

/-- One member, as another with the same key that is the same but for blanks. -/
theorem redactMember_of_blank {nested : Members → Except UseError Members} {reaches : Members → Prop}
    (hnested : ∀ members members', reaches members →
      blankMembers (sensitive redactKeys lower) .none members' =
        blankMembers (sensitive redactKeys lower) .none members →
      ∃ r, nested members = .ok r ∧ nested members' = .ok r)
    {key : Key} {v v' : Value} (hreaches : ReachesMember redactKeys lower reaches (key, v))
    (hv : sensitive redactKeys lower key = false →
      blank (sensitive redactKeys lower) .none v' = blank (sensitive redactKeys lower) .none v) :
    ∃ m, redactMember redactKeys lower nested (key, v) = .ok m ∧
      redactMember redactKeys lower nested (key, v') = .ok m := by
  cases key with
  | null | number _ => exact hreaches.elim
  | str key =>
    dsimp only [ReachesMember] at hreaches
    dsimp only [redactMember]
    by_cases hsafe : isSafe (lower key) = true
    · rw [if_pos hsafe] at hreaches
      have hv := hv (by rw [sensitive, hsafe]; rfl)
      rw [eq_of_blank_eq hreaches hv, if_pos hsafe]
      exact ⟨_, rfl, rfl⟩
    by_cases hword : containsWord redactKeys (lower key) = true
    · rw [if_neg hsafe, if_pos hword, if_neg hsafe, if_pos hword]
      exact ⟨_, rfl, rfl⟩
    rw [if_neg hsafe, if_neg hword] at hreaches
    obtain ⟨hkey, hreaches⟩ := hreaches
    replace hv := hv hkey
    rw [if_neg hsafe, if_neg hword, if_neg hsafe, if_neg hword]
    cases v with
    | dict members =>
      -- what is the same as a `dict` but for blanks is a `dict`
      cases v' with
      | dict members' =>
        obtain ⟨r, hr, hr'⟩ := hnested _ _ hreaches (Value.dict.inj hv)
        exact ⟨(.str key, .dict r), Fallible.map_ok_iff.mpr ⟨r, hr, rfl⟩,
          Fallible.map_ok_iff.mpr ⟨r, hr', rfl⟩⟩
      | none | bool _ | int _ | float _ | str _ | list _ | tuple _ => nomatch hv
    | none | bool _ | int _ | float _ | str _ | list _ | tuple _ =>
      rw [eq_of_blank_eq hreaches hv]
      exact ⟨_, rfl, rfl⟩

/-- What is reached is redacted, and blanks do not show. -/
theorem redactDict_of_blank : ∀ {frames : ℕ} {members members' : Members},
    Reaches redactKeys lower frames members →
      blankMembers (sensitive redactKeys lower) .none members' =
        blankMembers (sensitive redactKeys lower) .none members →
      ∃ r, redactDict redactKeys lower frames members = .ok r ∧
        redactDict redactKeys lower frames members' = .ok r := by
  intro frames
  -- Induction on the frames, and in each on the members.
  induction frames with
  | zero => exact fun h => h.elim
  | succ frames ih =>
    intro members
    induction members with
    | nil =>
      intro members' _ h
      obtain rfl : members' = [] := by cases members' <;> simp_all [blankMembers]
      exact ⟨[], rfl, rfl⟩
    | cons entry members ihm =>
      obtain ⟨key, v⟩ := entry
      intro members' hreaches h
      obtain ⟨hhead, hmembers⟩ := List.forall_mem_cons.mp hreaches
      match members', h with
      | (key', v') :: members', h =>
        obtain ⟨hentry, htail⟩ := List.cons.inj h
        obtain ⟨rfl, hvalue⟩ := Prod.mk.inj hentry
        have hblank : sensitive redactKeys lower key' = false →
            blank (sensitive redactKeys lower) .none v' = blank (sensitive redactKeys lower) .none v :=
          fun hkey => by rwa [hkey] at hvalue
        obtain ⟨m, hm, hm'⟩ := redactMember_of_blank (fun _ _ => ih) hhead hblank
        obtain ⟨r, hr, hr'⟩ := ihm hmembers htail
        unfold redactDict at hr hr' ⊢
        exact ⟨m :: r, by rw [List.mapM_cons, hm, hr]; rfl, by rw [List.mapM_cons, hm', hr']; rfl⟩

/-- A member in which one blank cannot be told from another. -/
theorem reachesMember_of_blank {x y : Value} (hxy : x ≠ y) (hdict : ∀ members, x ≠ .dict members)
    (hdict' : ∀ members, y ≠ .dict members)
    {nested : Members → Except UseError Members} {reaches : Members → Prop}
    (hnested : ∀ members r,
      nested (blankMembers (sensitive redactKeys lower) x members) = .ok r →
      nested (blankMembers (sensitive redactKeys lower) y members) = .ok r → reaches members)
    {key : Key} {v : Value} {m : Key × Value}
    (hx : redactMember redactKeys lower nested
      (key, if sensitive redactKeys lower key then x else blank (sensitive redactKeys lower) x v) =
        .ok m)
    (hy : redactMember redactKeys lower nested
      (key, if sensitive redactKeys lower key then y else blank (sensitive redactKeys lower) y v) =
        .ok m) :
    ReachesMember redactKeys lower reaches (key, v) := by
  cases key with
  | null | number _ => cases hx
  | str key =>
    dsimp only [ReachesMember]
    dsimp only [redactMember] at hx hy
    by_cases hsafe : isSafe (lower key) = true
    · have hkey : sensitive redactKeys lower (.str key) = false := by rw [sensitive, hsafe]; rfl
      rw [hkey, if_pos hsafe] at hx hy
      rw [if_pos hsafe]
      have hvalues := Except.ok.inj (hx.trans hy.symm)
      exact clean_of_blank hxy (Prod.mk.inj hvalues).2
    by_cases hword : containsWord redactKeys (lower key) = true
    · rw [if_neg hsafe, if_pos hword]
      trivial
    rw [if_neg hsafe, if_neg hword] at hx hy ⊢
    cases hkey : sensitive redactKeys lower (.str key) with
    | true =>
      -- the blank itself is what is logged
      rw [hkey, if_pos rfl] at hx hy
      split at hx
      · exact absurd rfl (hdict _)
      split at hy
      · exact absurd rfl (hdict' _)
      have hvalues := Except.ok.inj (hx.trans hy.symm)
      exact absurd (Prod.mk.inj hvalues).2 hxy
    | false =>
      rw [hkey, if_neg Bool.false_ne_true] at hx hy
      refine ⟨rfl, ?_⟩
      cases v with
      | dict members =>
        obtain ⟨r, hr, rfl⟩ := Fallible.map_ok_iff.mp hx
        obtain ⟨r', hr', hrr⟩ := Fallible.map_ok_iff.mp hy
        obtain rfl := Value.dict.inj (Prod.mk.inj hrr).2
        exact hnested members _ hr hr'
      | none | bool _ | int _ | float _ | str _ | list _ | tuple _ =>
        have hvalues := Except.ok.inj (hx.trans hy.symm)
        exact clean_of_blank hxy (Prod.mk.inj hvalues).2

/-- Where one blank cannot be told from another in what is logged, every sensitive key is reached. -/
theorem reaches_of_blank {x y : Value} (hxy : x ≠ y) (hdict : ∀ members, x ≠ .dict members)
    (hdict' : ∀ members, y ≠ .dict members) : ∀ {frames : ℕ} {members r : Members},
      redactDict redactKeys lower frames (blankMembers (sensitive redactKeys lower) x members) = .ok r →
      redactDict redactKeys lower frames (blankMembers (sensitive redactKeys lower) y members) = .ok r →
      Reaches redactKeys lower frames members := by
  intro frames
  -- Induction on the frames, and in each on the members.
  induction frames with
  | zero => exact fun h => nomatch h
  | succ frames ih =>
    intro members
    induction members with
    | nil => exact fun _ _ => nofun
    | cons entry members ihm =>
      obtain ⟨key, v⟩ := entry
      intro r hx hy
      unfold redactDict blankMembers at hx hy
      rw [List.mapM_cons] at hx hy
      obtain ⟨m, hm, hx⟩ := Fallible.bind_ok_iff.mp hx
      obtain ⟨ms, hms, hx⟩ := Fallible.bind_ok_iff.mp hx
      obtain ⟨m', hm', hy⟩ := Fallible.bind_ok_iff.mp hy
      obtain ⟨ms', hms', hy⟩ := Fallible.bind_ok_iff.mp hy
      obtain rfl := Except.ok.inj hx
      obtain ⟨rfl, rfl⟩ := List.cons.inj (Except.ok.inj hy)
      exact List.forall_mem_cons.mpr
        ⟨reachesMember_of_blank hxy hdict hdict' (fun _ _ => ih) hm hm', ihm hms hms'⟩

end

/-! ## The merged context -/

section

variable {s : Key → Bool} {x : Value} {py : Interpreter} {logger : Logger} {kwargs : Kwargs}

/-- Blanking goes through the merge of two dicts. -/
theorem blankMembers_update (merged members : Members) :
    blankMembers s x (update merged members) =
      update (blankMembers s x merged) (blankMembers s x members) := by
  unfold update
  induction members generalizing merged with
  | nil => rfl
  | cons m members ih =>
    have hput : blankMembers s x (put m.1 m.2 merged) =
        put m.1 (if s m.1 then x else blank s x m.2) (blankMembers s x merged) := by
      rw [blankMembers_eq_map, blankMembers_eq_map]
      exact map_put (fun key v => if s key then x else blank s x v) merged
    rw [List.foldl_cons, ih, hput, blankMembers, List.foldl_cons]

/-- A member whose key is not private. -/
def isPublic (m : Key × Value) : Bool :=
  match m.1 with
  | .str key => !isPrivate key
  | _ => true

/-- The merged context, of blanked contexts and arguments. -/
theorem blankMembers_mergedContext : blankMembers s x (logger.mergedContext kwargs) =
    update ((logger.contextStack.map (blankMembers s x)).foldl update [])
      ((blankMembers s x (kwargs.map member)).filter isPublic) := by
  -- Blanking goes through the merging of the contexts, and through that of the arguments.
  have hstack : ∀ merged, blankMembers s x (logger.contextStack.foldl update merged) =
      (logger.contextStack.map (blankMembers s x)).foldl update (blankMembers s x merged) := by
    induction logger.contextStack with
    | nil => exact fun _ => rfl
    | cons context stack ih =>
      intro merged
      rw [List.foldl_cons, ih, blankMembers_update, List.map_cons, List.foldl_cons]
  have hkwargs : blankMembers s x ((kwargs.filter (!isPrivate ·.1)).map member) =
      (blankMembers s x (kwargs.map member)).filter isPublic := by
    rw [blankMembers_eq_map, blankMembers_eq_map, List.filter_map, List.filter_map]
    rfl
  rw [Logger.mergedContext, blankMembers_update, hkwargs]
  exact congrArg (update · _) (hstack [])

/-- The logger with `x` under the sensitive keys of its contexts. -/
def Logger.blank (s : Key → Bool) (x : Value) (logger : Logger) : Logger :=
  { logger with contextStack := logger.contextStack.map (blankMembers s x) }

/-- The arguments with `x` under sensitive keys. -/
def blankKwargs (s : Key → Bool) (x : Value) (kwargs : Kwargs) : Kwargs :=
  kwargs.map fun entry => (entry.1, if s (.str entry.1) then x else Logs.blank s x entry.2)

/-- Blanking the arguments blanks the members they make. -/
theorem map_member_blankKwargs :
    (blankKwargs s x kwargs).map member = blankMembers s x (kwargs.map member) := by
  rw [blankMembers_eq_map, blankKwargs, List.map_map, List.map_map]
  rfl

/-- Blanking goes through the merge of a logger's contexts. -/
theorem mergedContext_blank : (logger.blank s x).mergedContext (blankKwargs s x kwargs) =
    blankMembers s x (logger.mergedContext kwargs) := by
  have hkwargs : ((blankKwargs s x kwargs).filter (!isPrivate ·.1)).map member =
      ((blankKwargs s x kwargs).map member).filter isPublic := by
    rw [List.filter_map]
    rfl
  rw [blankMembers_mergedContext, ← map_member_blankKwargs, ← hkwargs]
  rfl

/-- Two calls that differ in sensitive values alone are alike. -/
theorem Alike.blank :
    Alike py logger (logger.blank (sensitive logger.redactKeys py.lower) x) kwargs
      (blankKwargs (sensitive logger.redactKeys py.lower) x kwargs) where
  redactKeys := rfl
  stack := by
    rw [Logger.blank, List.map_map]
    exact List.map_congr_left fun members _ => blankMembers_blankMembers members
  kwargs := by rw [map_member_blankKwargs, blankMembers_blankMembers]

/-- What differs under sensitive keys only is merged to what does. -/
theorem Alike.mergedContext {logger' : Logger} {kwargs' : Kwargs}
    (h : Alike py logger logger' kwargs kwargs') :
    blankMembers (sensitive logger.redactKeys py.lower) .none (logger'.mergedContext kwargs') =
      blankMembers (sensitive logger.redactKeys py.lower) .none (logger.mergedContext kwargs) := by
  rw [blankMembers_mergedContext, blankMembers_mergedContext, h.stack, h.kwargs]

/-! ## What is logged -/

/-- What is logged is the redacted context. -/
theorem log_ok {level : String} {message : Text} {record : Record}
    (h : logger.log py level message kwargs = .ok record) :
    redactDict logger.redactKeys py.lower py.frames (logger.mergedContext kwargs) =
      .ok record.context := by
  obtain ⟨context, hcontext, h⟩ := Fallible.bind_ok_iff.mp h
  obtain rfl := Except.ok.inj h
  exact hcontext

/-- A context that is redacted is logged. -/
theorem exists_log {context : Members}
    (h : redactDict logger.redactKeys py.lower py.frames (logger.mergedContext kwargs) = .ok context)
    (level : String) (message : Text) :
    ∃ record, logger.log py level message kwargs = .ok record ∧ record.context = context :=
  ⟨_, Fallible.bind_ok_iff.mpr ⟨context, h, rfl⟩, rfl⟩

/-- What leaks nothing is reached. -/
theorem reaches_of_leaksNothing (h : LeaksNothing py logger kwargs) :
    Reaches logger.redactKeys py.lower py.frames (logger.mergedContext kwargs) := by
  obtain ⟨record, -, halike⟩ := h "info" []
  have hblank : ∀ x, redactDict logger.redactKeys py.lower py.frames
      (blankMembers (sensitive logger.redactKeys py.lower) x (logger.mergedContext kwargs)) =
        .ok record.context := by
    intro x
    obtain ⟨record', hrecord', hcontext⟩ := halike _ _ (Alike.blank (x := x))
    rw [← mergedContext_blank, ← hcontext]
    exact log_ok hrecord'
  exact reaches_of_blank none_ne_true nofun nofun (hblank _) (hblank _)

/-- The logger leaks nothing exactly when `_redact_dict` comes to every sensitive key of the merged
context. -/
theorem leaks_nothing_iff (py : Interpreter) (logger : Logger) (kwargs : Kwargs) :
    LeaksNothing py logger kwargs ↔
      Reaches logger.redactKeys py.lower py.frames (logger.mergedContext kwargs) := by
  refine ⟨reaches_of_leaksNothing, fun h level message => ?_⟩
  obtain ⟨context, hcontext, -⟩ := redactDict_of_blank h rfl
  obtain ⟨record, hrecord, rfl⟩ := exists_log hcontext level message
  refine ⟨record, hrecord, fun logger' kwargs' halike => ?_⟩
  obtain ⟨context, hcontext', hlogged⟩ := redactDict_of_blank h halike.mergedContext
  rw [hcontext] at hcontext'
  obtain rfl := Except.ok.inj hcontext'
  rw [← halike.redactKeys] at hlogged
  exact exists_log hlogged level message

/-- Python, for texts in ASCII. -/
def asciiPython : Interpreter where
  lower := List.map fun c => if 'A'.toNat ≤ c.val && c.val ≤ 'Z'.toNat then point (c.val + 32) else c
  frames := 900

/-- A connection in a list. -/
def connections : Value := .list [.dict [(.str (text "password"), .str (text "hunter2"))]]

/-- It is logged with its password. -/
theorem list_leaks :
    ¬LeaksNothing asciiPython (Logger.new none) [(text "db", connections)] := by
  intro h
  have hmerged : (Logger.new none).mergedContext [(text "db", connections)] =
      [(.str (text "db"), connections)] := rfl
  have hreaches := reaches_of_leaksNothing h
  rw [hmerged] at hreaches
  obtain ⟨nested, hmembers⟩ := hreaches.members
  have hmember : ReachesMember defaultRedactKeys asciiPython.lower nested
      (.str (text "db"), connections) := hmembers _ List.mem_cons_self
  dsimp only [ReachesMember] at hmember
  rw [if_neg (by decide), if_neg (by decide)] at hmember
  exact absurd (hmember.2 (.str (text "password")) List.mem_cons_self) (by decide)

end

end Fraisier.Logs
