import Fraisier.Lib.PosixPath
import Fraisier.Lib.Separator
import Fraisier.Scaffold.Foreign

/-!
# When the owners of units have names of their own

The names of units join the names of a project, a fraise and an environment by dashes, which may
also stand inside these names: `a-b` in `c` and `a` in `b-c` share their units. `names_apart_iff`
says which owners do.
-/

namespace Fraisier.Scaffold

open Fraisier.Lib Str

/-! ## Owners -/

/-- Who units are written for: a fraise in an environment, an environment with its unit installer,
and an entry of an environment's retention policy. -/
inductive Owner
  | pair (fraise env : SafeName)
  | environment (env : SafeName)
  | entry (env : Str) (name : RetainName)

/-- A project: its name, the configuration of each fraise in each environment, and the owners that
it declares. -/
structure Project where
  name : Str
  config : Str → Str → EnvConfig
  owners : List Owner

variable {p : Project}

/-- The units that are named after an owner, its application's under the default name. -/
def Owner.unitNames (p : Project) : Owner → List Str
  | .pair f e => deployUnitNames (p.config f e) e f ++ appServiceName p.name f e {} ::
      (pgbackrestHelperUnitNames p.name f e ++ preMigratePruneUnitNames p.name f e)
  | .environment e => unitInstallerUnitNames p.name e
  | .entry e n => retentionUnitNames p.name e n

/-- The sockets. -/
def Owner.socketPaths (p : Project) : Owner → List PurePath
  | .pair f e => [deploySocketPath (p.config f e) e f, pgbackrestHelperSocketPath p.name f e]
  | .environment e => [unitInstallerSocketPath p.name e]
  | .entry _ _ => []

/-- The owner is on a host that declares the scopes. -/
def Owner.OnHost (scopes : List Scope) : Owner → Prop
  | .pair f e => scopeAllows scopes f e = true
  | .environment e => ∃ fraise, (fraise, e.val) ∈ scopes
  | .entry e _ => ∃ fraise, (fraise, e) ∈ scopes

/-- Two owners share a unit or a socket. -/
def Shares (p : Project) (o o' : Owner) : Prop :=
  (∃ n ∈ o.unitNames p, n ∈ o'.unitNames p) ∨ ∃ path ∈ o.socketPaths p, path ∈ o'.socketPaths p

/-- The unit is one of those that are named after its recorded owner. -/
def Named (p : Project) (unit : ForeignUnit) : Prop :=
  ∃ f e, .pair f e ∈ p.owners ∧ f.val = unit.ownerFraise ∧ e.val = unit.environment ∧
    unit.unitName ∈ (Owner.pair f e).unitNames p

/-- Different owners share nothing, so what is pruned of owners that are not on the host leaves
alone the units of those that are. -/
structure NamesApart (p : Project) : Prop where
  distinct : ∀ o ∈ p.owners, ∀ o' ∈ p.owners, o ≠ o' → ¬Shares p o o'
  pruned : ∀ (scopesForServer : Str → List Scope) (server : Str) (units : List ForeignUnit)
    (commands : List (List Str)), (∀ unit ∈ units, Named p unit) →
      pruneForeignUnits scopesForServer (some server) units = .ok commands →
        ∀ o ∈ p.owners, o.OnHost (scopesForServer server) →
          ∀ n ∈ o.unitNames p, disableNow n ∉ commands

/-! ## When two owners meet -/

/-- The environment sets the socket's name, or a name of its own that the socket is named after. -/
def Project.Chooses (p : Project) (f e : Str) : Prop :=
  (p.config f e).systemdDeploySocket.filter (· ≠ []) ≠ none ∨
    (p.config f e).name.filter (· ≠ []) ≠ none

/-- Two owners that share something, by what makes their names the same. -/
inductive Clash (p : Project) : Owner → Owner → Prop
  /-- The fraise and the environment joined by a dash. -/
  | dash {f e f' e' : SafeName} : Straddles '-' f.val e f'.val e' →
      Clash p (.pair f e) (.pair f' e')
  /-- Joined by an underscore. -/
  | underscore {f e f' e' : SafeName} : Straddles '_' f.val e f'.val e' →
      Clash p (.pair f e) (.pair f' e')
  /-- A deploy socket that reads like a pgBackRest helper's. -/
  | helperSocket {f e f' e' : SafeName} : ¬p.Chooses f e →
      dashed [f, e] = dashed [p.name, f', e', "pgbackrest-helper".toList] →
        Clash p (.pair f e) (.pair f' e')
  /-- A deploy socket that reads like a unit installer's. -/
  | installerSocket {f e e' : SafeName} : ¬p.Chooses f e →
      dashed [f, e] = dashed [p.name, e', "unit-installer".toList] →
        Clash p (.pair f e) (.environment e')
  /-- A deploy socket whose name is chosen, and is one of the other owner's. -/
  | chosen {f e : SafeName} {o : Owner} : p.Chooses f e →
      (∃ n ∈ deployUnitNames (p.config f e) e f, n ∈ o.unitNames p) ∨
        deploySocketPath (p.config f e) e f ∈ o.socketPaths p → Clash p (.pair f e) o
  /-- A helper that reads like a retention entry's unit. -/
  | helperEntry {f e : SafeName} {e' : Str} {n : RetainName} :
      dashed [f, e, "pgbackrest-helper".toList] = dashed [e', "retain".toList, n] →
        Clash p (.pair f e) (.entry e' n)
  /-- A prune that does. -/
  | pruneEntry {f e : SafeName} {e' : Str} {n : RetainName} :
      dashed [f, e, "pre-migrate-prune".toList] = dashed [e', "retain".toList, n] →
        Clash p (.pair f e) (.entry e' n)
  /-- A unit installer that does. -/
  | installerEntry {e : SafeName} {e' : Str} {n : RetainName} :
      dashed [e, "unit-installer".toList] = dashed [e', "retain".toList, n] →
        Clash p (.environment e) (.entry e' n)
  /-- Two entries, when the environment of one goes on with `-retain`. -/
  | retain {e e' : Str} {n n' : RetainName} : e' = e ++ "-retain".toList →
      n.val = "retain-".toList ++ n' → Clash p (.entry e n) (.entry e' n')
  /-- Or with `-retain-` and more. -/
  | retainMore {e e' s : Str} {n n' : RetainName} : e' = e ++ "-retain-".toList ++ s →
      n.val = s ++ "-retain-".toList ++ n' → Clash p (.entry e n) (.entry e' n')

/-! ## Joined names -/

variable {a b c d s t : Str} {words words' : List Str}

/-- One word is joined to itself. -/
@[simp]
theorem dashed_singleton (a : Str) : dashed [a] = a := List.intercalate_singleton

/-- A word is joined to the rest with a dash. -/
@[simp]
theorem dashed_cons (a b : Str) (words : List Str) :
    dashed (a :: b :: words) = a ++ '-' :: dashed (b :: words) := by
  simp [dashed, List.intercalate_cons_cons]

/-- The default name of an application reads like no name that starts with `fraisier-` and the
project's. -/
theorem app_ne (project a : Str) (words : List Str) :
    project ++ '_' :: a ≠ dashed (fraisier :: project :: words) := by
  have htail : ∃ b, dashed (fraisier :: project :: words) =
      (fraisier ++ ['-']) ++ (project ++ b) := by
    cases words with
    | nil => exact ⟨[], by simp⟩
    | cons word words => exact ⟨'-' :: dashed (word :: words), by simp⟩
  obtain ⟨b, hb⟩ := htail
  rw [hb]
  exact append_cons_ne_append (by decide) (by decide) project a b

/-- A safe name has name characters and at most a newline at its end. -/
theorem isNameChar_or_newline {c : Char} {s : Str} (hs : isSafeName s = true) (hc : c ∈ s) :
    isNameChar c = true ∨ c = '\n' := by
  unfold isSafeName at hs
  dsimp only at hs
  rw [Bool.and_eq_true, List.all_eq_true] at hs
  split at hs
  · next hlast =>
    obtain ⟨word, rfl⟩ := List.getLast?_eq_some_iff.mp hlast
    obtain hc | hc := List.mem_append.mp hc
    · exact .inl (hs.2 c (by simpa using hc))
    · exact .inr (List.mem_singleton.mp hc)
  · exact .inl (hs.2 c hc)

/-- A safe name is not empty. -/
theorem SafeName.ne_nil (s : SafeName) : s.val ≠ [] := by
  intro h
  have hs := s.property
  rw [h] at hs
  exact absurd hs (by decide)

/-- A name that is accepted has no character that a name may not have. -/
theorem SafeName.notMem {c : Char} (s : SafeName) (hc : isNameChar c = false) (hn : c ≠ '\n') :
    c ∉ s.val := fun hmem => by
  obtain h | h := isNameChar_or_newline s.property hmem
  · simp [hc] at h
  · exact hn h

/-- A retained name is not empty. -/
theorem RetainName.ne_nil (n : RetainName) : n.val ≠ [] := by
  intro h
  have hn := n.property
  rw [h] at hn
  exact absurd hn (by decide)

/-- A retained name holds name characters only. -/
theorem RetainName.notMem {c : Char} (n : RetainName) (hc : isNameChar c = false) : c ∉ n.val := by
  intro hmem
  have hn := n.property
  simp only [isRetainName, Bool.and_eq_true, List.all_eq_true] at hn
  exact absurd (hn.2 c hmem) (by simp [hc])

/-! ## Names of helpers -/

/-- The words of a name that follow the project's. -/
inductive Helper : Owner → List Str → Prop
  | pgbackrest (f e : SafeName) : Helper (.pair f e) [f, e, "pgbackrest-helper".toList]
  | prune (f e : SafeName) : Helper (.pair f e) [f, e, "pre-migrate-prune".toList]
  | installer (e : SafeName) : Helper (.environment e) [e, "unit-installer".toList]
  | entry (e : Str) (n : RetainName) : Helper (.entry e n) [e, "retain".toList, n]

variable {o o' : Owner}

/-- Two pairs that differ, differ in the fraise or in the environment. -/
theorem pair_ne {f e f' e' : SafeName} (h : Owner.pair f e ≠ .pair f' e') :
    ¬(f.val = f'.val ∧ e.val = e'.val) := fun ⟨hf, he⟩ =>
  h (by rw [Subtype.ext hf, Subtype.ext he])

/-- Two pairs whose names are joined to one text straddle each other. -/
theorem meets_of_dashed {f e f' e' : SafeName} (hne : Owner.pair f e ≠ .pair f' e')
    (h : dashed [f, e] = dashed [f', e']) :
    Clash p (.pair f e) (.pair f' e') ∨ Clash p (.pair f' e') (.pair f e) := by
  simp only [dashed_cons, dashed_singleton] at h
  obtain heq | hs | hs := append_cons_eq_iff.mp h
  · exact absurd heq (pair_ne hne)
  · exact .inl (.dash hs)
  · exact .inr (.dash hs)

/-- The same last word can be taken off both sides. -/
theorem dashed_cancel (h : dashed [a, b, s] = dashed [c, d, s]) :
    dashed [a, b] = dashed [c, d] := by
  have h' : dashed [a, b] ++ '-' :: s = dashed [c, d] ++ '-' :: s := by simpa using h
  exact List.append_cancel_right h'

/-- Two entries whose names are joined to one text. -/
theorem meets_of_retain {e e' : Str} {n n' : RetainName} (hne : Owner.entry e n ≠ .entry e' n')
    (h : dashed [e, "retain".toList, n] = dashed [e', "retain".toList, n']) :
    Clash p (.entry e n) (.entry e' n') ∨ Clash p (.entry e' n') (.entry e n) := by
  have hdash : '-' ∉ "retain".toList := by decide
  -- The names may be cut at another dash.
  have hstraddles : ∀ {e e' : Str} {n n' : RetainName},
      Straddles '-' e (dashed ["retain".toList, n]) e' (dashed ["retain".toList, n']) →
        Clash p (.entry e n) (.entry e' n') := by
    rintro e e' n n' ⟨s, rfl, hs⟩
    rw [dashed_cons, dashed_singleton] at hs
    obtain ⟨rfl, hn⟩ | ⟨u, hu, hn⟩ | ⟨u, hu, -⟩ := append_cons_eq_iff.mp hs
    · exact .retain (by simp) (by simpa using hn)
    · exact .retainMore (s := u) (by simp [hu]) (by simpa using hn)
    · exact absurd (by rw [hu]; simp) hdash
  rw [dashed_cons, dashed_cons e'] at h
  obtain ⟨rfl, heq⟩ | hs | hs := append_cons_eq_iff.mp h
  · have hn : n = n' := Subtype.ext (by simpa using heq)
    exact absurd (by rw [hn]) hne
  · exact .inl (hstraddles hs)
  · exact .inr (hstraddles hs)

/-- Two helpers with one name meet. -/
theorem helpers_meet (h : Helper o words) (h' : Helper o' words') (hne : o ≠ o')
    (heq : dashed words = dashed words') : Clash p o o' ∨ Clash p o' o := by
  -- the ends of the names tell the kinds apart, but for an entry's name, which may have any end
  have hends : ∀ {a b s t : Str}, ¬('-' :: s <:+ '-' :: t) → ¬('-' :: t <:+ '-' :: s) →
      a ++ '-' :: s ≠ b ++ '-' :: t := fun hst hts => ne_of_ends hst hts
  have hthree : ∀ a b s : Str, dashed [a, b, s] = (a ++ '-' :: b) ++ '-' :: s := by simp
  have htwo : ∀ a s : Str, dashed [a, s] = a ++ '-' :: s := by simp
  cases h with
  | pgbackrest f e =>
    cases h' with
    | pgbackrest f' e' => exact meets_of_dashed hne (dashed_cancel heq)
    | prune f' e' =>
      rw [hthree, hthree] at heq
      exact absurd heq (hends (by decide) (by decide))
    | installer e' =>
      rw [hthree, htwo] at heq
      exact absurd heq (hends (by decide) (by decide))
    | entry e' n => exact .inl (.helperEntry heq)
  | prune f e =>
    cases h' with
    | pgbackrest f' e' =>
      rw [hthree, hthree] at heq
      exact absurd heq (hends (by decide) (by decide))
    | prune f' e' => exact meets_of_dashed hne (dashed_cancel heq)
    | installer e' =>
      rw [hthree, htwo] at heq
      exact absurd heq (hends (by decide) (by decide))
    | entry e' n => exact .inl (.pruneEntry heq)
  | installer e =>
    cases h' with
    | pgbackrest f' e' =>
      rw [hthree, htwo] at heq
      exact absurd heq (hends (by decide) (by decide))
    | prune f' e' =>
      rw [hthree, htwo] at heq
      exact absurd heq (hends (by decide) (by decide))
    | installer e' =>
      rw [htwo, htwo] at heq
      have he : e = e' := Subtype.ext (List.append_cancel_right heq)
      exact absurd (by rw [he]) hne
    | entry e' n => exact .inl (.installerEntry heq)
  | entry e n =>
    cases h' with
    | pgbackrest f' e' => exact .inr (.helperEntry heq.symm)
    | prune f' e' => exact .inr (.pruneEntry heq.symm)
    | installer e' => exact .inr (.installerEntry heq.symm)
    | entry e' n' => exact meets_of_retain hne heq

/-! ## Derived units -/

/-- The extension of a unit. -/
inductive Ext
  | socket | service | timer

/-- Its text. -/
def Ext.text : Ext → Str
  | .socket => dotSocket
  | .service => dotService
  | .timer => dotTimer

/-- The units that are named after an owner without a choice, by their stems. -/
inductive Derived (p : Project) : Owner → Str → Ext → Prop
  | deploySocket {f e : SafeName} (h : ¬p.Chooses f e) :
      Derived p (.pair f e) (dashed [fraisier, f, e]) .socket
  | deployService {f e : SafeName} (h : ¬p.Chooses f e) :
      Derived p (.pair f e) (dashed [fraisier, f, e] ++ ['@']) .service
  | app (f e : SafeName) : Derived p (.pair f e) (p.name ++ '_' :: (f ++ '_' :: e)) .service
  | pgbackrestSocket (f e : SafeName) : Derived p (.pair f e)
      (dashed [fraisier, p.name, f, e, "pgbackrest-helper".toList]) .socket
  | installerSocket (e : SafeName) : Derived p (.environment e)
      (dashed [fraisier, p.name, e, "unit-installer".toList]) .socket
  | helper {o : Owner} {words : List Str} {x : Ext} (h : Helper o words) (hx : x ≠ .socket) :
      Derived p o (dashed (fraisier :: p.name :: words)) x

/-- The extensions are told apart by their last letters. -/
def Ext.last : Ext → Char
  | .socket => 't'
  | .service => 'e'
  | .timer => 'r'

/-- An extension ends with its last character. -/
theorem Ext.getLast?_text (x : Ext) : x.text.getLast? = some x.last := by
  cases x <;> decide

/-- The stem and the extension are read off a name. -/
theorem ext_inj {x x' : Ext} (h : a ++ x.text = b ++ x'.text) : a = b ∧ x = x' := by
  have hlast := congrArg List.getLast? h
  rw [List.getLast?_append, List.getLast?_append, x.getLast?_text, x'.getLast?_text] at hlast
  have hx : x = x' := by
    have hchar : x.last = x'.last := Option.some.inj hlast
    cases x <;> cases x' <;> first | rfl | exact absurd hchar (by decide)
  subst hx
  exact ⟨List.append_cancel_right h, rfl⟩

/-- The same first word can be taken off both sides. -/
theorem dashed_left (h : dashed (a :: b :: words) = dashed (a :: c :: words')) :
    dashed (b :: words) = dashed (c :: words') := by
  rw [dashed_cons, dashed_cons, List.append_cancel_left_eq, List.cons.injEq] at h
  exact h.2

/-- The same first word can be put before both sides. -/
theorem dashed_congr (a : Str) (h : dashed (b :: words) = dashed (c :: words')) :
    dashed (a :: b :: words) = dashed (a :: c :: words') := by
  rw [dashed_cons, dashed_cons, h]

/-- No derived service ends with an at sign, but for the deploy service. -/
theorem ne_at {n : Str} (hn : n ≠ []) (hat : '@' ∉ n) : a ++ n ≠ b ++ ['@'] := by
  intro h
  have hlast := congrArg List.getLast? h
  rw [List.getLast?_append, List.getLast?_append, List.getLast?_eq_some_getLast hn] at hlast
  simp only [Option.some_or, List.getLast?_singleton, Option.some.injEq] at hlast
  exact hat (hlast ▸ List.getLast_mem hn)

/-- No helper's unit is a template. -/
theorem Helper.ne_at (h : Helper o words) : dashed (fraisier :: s :: words) ≠ b ++ ['@'] := by
  -- Each helper's unit ends in a word without an `@`.
  have hend : ∀ u : Str, u ≠ [] → '@' ∉ u → ∀ v : Str, v ++ u ≠ b ++ ['@'] :=
    fun u hu hat v => Scaffold.ne_at hu hat
  cases h with
  | pgbackrest f e =>
    simpa using hend "pgbackrest-helper".toList (by decide) (by decide)
      (fraisier ++ '-' :: (s ++ '-' :: (f ++ '-' :: (e ++ ['-']))))
  | prune f e =>
    simpa using hend "pre-migrate-prune".toList (by decide) (by decide)
      (fraisier ++ '-' :: (s ++ '-' :: (f ++ '-' :: (e ++ ['-']))))
  | installer e =>
    simpa using hend "unit-installer".toList (by decide) (by decide)
      (fraisier ++ '-' :: (s ++ '-' :: (e ++ ['-'])))
  | entry e n =>
    simpa using hend n n.ne_nil (n.notMem (by decide))
      (fraisier ++ '-' :: (s ++ '-' :: (e ++ '-' :: ("retain".toList ++ ['-']))))

/-- The words of a helper's unit are not empty. -/
theorem Helper.exists_cons (h : Helper o words) : ∃ word rest, words = word :: rest := by
  cases h <;> exact ⟨_, _, rfl⟩

/-- Two owners with one derived name meet. -/
theorem derived_meets {x : Ext} (h : Derived p o s x) (h' : Derived p o' s x) (hne : o ≠ o') :
    Clash p o o' ∨ Clash p o' o := by
  have happ : ∀ {f e : SafeName} {b : Str},
      p.name ++ '_' :: (f.val ++ '_' :: e.val) ≠ b ++ ['@'] := by
    intro f e b
    simpa using Scaffold.ne_at (a := p.name ++ '_' :: (f.val ++ ['_'])) e.ne_nil
      (e.notMem (by decide) (by decide))
  generalize hs : s = s' at h'
  -- The cases are the kinds of the two names.
  cases h with
  | deploySocket hd =>
    cases h' with
    | deploySocket hd' => exact meets_of_dashed hne (dashed_left hs)
    | pgbackrestSocket f' e' => exact .inl (.helperSocket hd (dashed_left hs))
    | installerSocket e' => exact .inl (.installerSocket hd (dashed_left hs))
    | helper h' hx => exact absurd rfl hx
  | deployService hd =>
    cases h' with
    | deployService hd' => exact meets_of_dashed hne (dashed_left (List.append_cancel_right hs))
    | app f' e' => exact absurd hs.symm happ
    | helper h' hx => exact absurd hs.symm h'.ne_at
  | app f e =>
    cases h' with
    | deployService hd' => exact absurd hs happ
    | app f' e' =>
      obtain heq | hst | hst := append_cons_eq_iff.mp
        (List.cons.inj (List.append_cancel_left hs)).2
      · exact absurd heq (pair_ne hne)
      · exact .inl (.underscore hst)
      · exact .inr (.underscore hst)
    | helper h' hx => exact absurd hs (app_ne _ _ _)
  | pgbackrestSocket f e =>
    cases h' with
    | deploySocket hd' => exact .inr (.helperSocket hd' (dashed_left hs.symm))
    | pgbackrestSocket f' e' =>
      exact helpers_meet (.pgbackrest f e) (.pgbackrest f' e') hne (dashed_left (dashed_left hs))
    | installerSocket e' =>
      exact helpers_meet (.pgbackrest f e) (.installer e') hne (dashed_left (dashed_left hs))
    | helper h' hx => exact absurd rfl hx
  | installerSocket e =>
    cases h' with
    | deploySocket hd' => exact .inr (.installerSocket hd' (dashed_left hs.symm))
    | pgbackrestSocket f' e' =>
      exact helpers_meet (.installer e) (.pgbackrest f' e') hne (dashed_left (dashed_left hs))
    | installerSocket e' =>
      exact helpers_meet (.installer e) (.installer e') hne (dashed_left (dashed_left hs))
    | helper h' hx => exact absurd rfl hx
  | helper h hx =>
    cases h' with
    | deploySocket hd' => exact absurd rfl hx
    | deployService hd' => exact absurd hs h.ne_at
    | app f' e' => exact absurd hs.symm (app_ne _ _ _)
    | pgbackrestSocket f' e' => exact absurd rfl hx
    | installerSocket e' => exact absurd rfl hx
    | helper h' hx' =>
      obtain ⟨word, rest, rfl⟩ := h.exists_cons
      obtain ⟨word', rest', rfl⟩ := h'.exists_cons
      exact helpers_meet h h' hne (dashed_left (dashed_left hs))

/-- A socket whose name is not configured is named after the fraise and the environment. -/
theorem deploySocketName_derived {f e : SafeName} (h : ¬p.Chooses f e) :
    deploySocketName (p.config f e) e f = dashed [fraisier, f, e] ++ dotSocket := by
  unfold Project.Chooses at h
  push Not at h
  unfold deploySocketName
  rw [h.1, h.2]
  exact if_pos f.ne_nil

/-- The stem of a socket that is not configured is named after the fraise and the environment. -/
theorem socketStem_derived {f e : SafeName} (h : ¬p.Chooses f e) :
    socketStem (p.config f e) e f = dashed [fraisier, f, e] := by
  have hend : endsWith (dashed [fraisier, f, e] ++ dotSocket) dotSocket = true :=
    List.isSuffixOf_iff_suffix.mpr (List.suffix_append _ _)
  unfold socketStem removeSuffix
  rw [deploySocketName_derived h, if_pos hend, List.length_append, Nat.add_sub_cancel]
  exact List.take_left

/-- A unit of an owner is derived, or belongs to a deploy socket whose name is chosen. -/
theorem mem_unitNames {n : Str} (h : n ∈ o.unitNames p) :
    (∃ f e, o = .pair f e ∧ p.Chooses f.val e ∧ n ∈ deployUnitNames (p.config f e) e f) ∨
      ∃ s x, Derived p o s x ∧ n = s ++ x.text := by
  -- The cases are the kinds of owner.
  cases o with
  | pair f e =>
    simp only [Owner.unitNames, List.mem_append, List.mem_cons] at h
    obtain hdeploy | rfl | hhelper | hprune := h
    -- A deploy socket has its own name, or the one derived from the pair.
    · by_cases hchooses : p.Chooses f.val e
      · exact .inl ⟨f, e, rfl, hchooses, hdeploy⟩
      · unfold deployUnitNames at hdeploy
        rw [deploySocketName_derived hchooses, socketStem_derived hchooses] at hdeploy
        simp only [List.mem_cons, List.not_mem_nil, or_false] at hdeploy
        obtain rfl | rfl := hdeploy
        · exact .inr ⟨_, .socket, .deploySocket hchooses, rfl⟩
        · exact .inr ⟨_, .service, .deployService hchooses, rfl⟩
    · exact .inr ⟨_, .service, .app f e, by simp [appServiceName, Ext.text]⟩
    · simp only [pgbackrestHelperUnitNames, List.mem_cons, List.not_mem_nil, or_false] at hhelper
      obtain rfl | rfl := hhelper
      · exact .inr ⟨_, .socket, .pgbackrestSocket f e, rfl⟩
      · exact .inr ⟨_, .service, .helper (.pgbackrest f e) (by simp), rfl⟩
    · simp only [preMigratePruneUnitNames, List.mem_cons, List.not_mem_nil, or_false] at hprune
      obtain rfl | rfl := hprune
      · exact .inr ⟨_, .service, .helper (.prune f e) (by simp), rfl⟩
      · exact .inr ⟨_, .timer, .helper (.prune f e) (by simp), rfl⟩
  | environment e =>
    simp only [Owner.unitNames, unitInstallerUnitNames, List.mem_cons, List.not_mem_nil,
      or_false] at h
    obtain rfl | rfl := h
    · exact .inr ⟨_, .socket, .installerSocket e, rfl⟩
    · exact .inr ⟨_, .service, .helper (.installer e) (by simp), rfl⟩
  | entry e n =>
    simp only [Owner.unitNames, retentionUnitNames, List.mem_cons, List.not_mem_nil,
      or_false] at h
    obtain rfl | rfl := h
    · exact .inr ⟨_, .service, .helper (.entry e n) (by simp), rfl⟩
    · exact .inr ⟨_, .timer, .helper (.entry e n) (by simp), rfl⟩

/-! ## Sockets -/

/-- A path below `/run/fraisier`. -/
theorem of_run (t : Str) : PurePath.of ("/run/fraisier/".toList ++ t) =
    ⟨['/'], "run".toList :: "fraisier".toList :: components t⟩ := by
  have hrun : components ("run/fraisier/".toList ++ t) =
      "run".toList :: "fraisier".toList :: components t := by
    have hsplit : "run/fraisier/".toList ++ t = "run".toList ++ '/' :: (fraisier ++ '/' :: t) := rfl
    rw [hsplit, components_append, components_append, components_single (by decide) (by decide),
      components_single (by decide) (by decide)]
    rfl
  rw [← hrun]
  exact PurePath.of_slash (by decide) _

/-- The path of a derived deploy socket. -/
theorem deploySocketPath_derived {f e : SafeName} (h : ¬p.Chooses f e) :
    deploySocketPath (p.config f e) e f = ⟨['/'], ["run".toList, "fraisier".toList,
      dashed [fraisier, f, e], "deploy.sock".toList]⟩ := by
  -- The stem is one component, so it is kept as it is.
  have hslash : '/' ∉ dashed [fraisier, f, e] := by
    have hf := f.notMem (c := '/') (by decide) (by decide)
    have he := e.notMem (c := '/') (by decide) (by decide)
    have hfraisier : '/' ∉ fraisier := by decide
    simp [hf, he, hfraisier]
  obtain ⟨t, ht⟩ : ∃ t, dashed [fraisier, f, e] = 'f' :: 'r' :: t := ⟨_, rfl⟩
  have hkept : Kept (dashed [fraisier, f, e]) := by
    rw [ht]
    exact ⟨List.cons_ne_nil _ _, fun h => by injection h; contradiction⟩
  have hhead : (dashed [fraisier, f, e]).head? ≠ some '/' := by
    rw [ht, List.head?_cons]
    decide
  have hstem : PurePath.of (dashed [fraisier, f, e]) = ⟨[], [dashed [fraisier, f, e]]⟩ := by
    rw [PurePath.of_relative hhead, components_single hslash hkept]
  unfold deploySocketPath
  rw [socketStem_derived h]
  simp only [PurePath.join, hstem]
  rfl

/-- The words of a pgBackRest helper's socket that follow the project's. -/
def helperTail (f e : Str) : Str := '-' :: (dashed [f, e] ++ ".sock".toList)

/-- The tail of a helper's name holds no slash. -/
theorem slash_notMem_helperTail (f e : SafeName) : '/' ∉ helperTail f e := by
  have hf := f.notMem (c := '/') (by decide) (by decide)
  have he := e.notMem (c := '/') (by decide) (by decide)
  have hsock : '/' ∉ ".sock".toList := by decide
  simp only [helperTail, dashed_cons, dashed_singleton, List.mem_cons, List.mem_append, hf, he,
    hsock, or_false]
  decide

/-- A text that ends in `.sock` is kept as a component. -/
theorem kept_sock (s : Str) : Kept (s ++ ".sock".toList) := by
  have hlength : (s ++ ".sock".toList).length = s.length + 5 := List.length_append
  constructor <;> intro h <;> rw [h] at hlength <;> simp at hlength

/-- The last component of a pgBackRest helper's socket. -/
theorem pgbackrestHelperSocketPath_last (project : Str) (f e : SafeName) :
    (pgbackrestHelperSocketPath project f e).parts.getLast? =
      some (basename ("pgbackrest-".toList ++ project) ++ helperTail f e) := by
  have htext : dashed ["pgbackrest".toList, project, f.val, e.val] ++ ".sock".toList =
      ("pgbackrest-".toList ++ project) ++ helperTail f e := by
    simp only [helperTail, dashed_cons, dashed_singleton, List.append_assoc, List.cons_append]
    rfl
  have hbase := basename_append (u := "pgbackrest-".toList ++ project) (slash_notMem_helperTail f e)
  have hkept : Kept (basename (("pgbackrest-".toList ++ project) ++ helperTail f e)) := by
    rw [hbase, helperTail, ← List.cons_append, ← List.append_assoc]
    exact kept_sock _
  unfold pgbackrestHelperSocketPath
  rw [List.append_assoc, htext, of_run, ← hbase, List.getLast?_cons_cons, List.getLast?_cons,
    getLast?_components hkept]
  rfl

/-- The name of a unit installer's socket in the directory of its environment. -/
def installerSock (project : Str) : Str := "unit-installer-".toList ++ project ++ ".sock".toList

/-- The socket of the unit installer lies in the environment's directory. -/
theorem unitInstallerSocketPath_eq (project : Str) (e : SafeName) :
    unitInstallerSocketPath project e = ⟨['/'], "run".toList :: "fraisier".toList :: e.val ::
      components (installerSock project)⟩ := by
  have hslash : '/' ∉ e.val := e.notMem (by decide) (by decide)
  have hkept : Kept e.val := ⟨e.ne_nil, fun h =>
    e.notMem (c := '.') (by decide) (by decide) (h ▸ List.mem_singleton_self _)⟩
  have hassoc : ∀ run unit sock : Str, run ++ e.val ++ '/' :: unit ++ project ++ sock =
      run ++ (e.val ++ '/' :: (unit ++ project ++ sock)) := by simp
  have htext : "/run/fraisier/".toList ++ e.val ++ "/unit-installer-".toList ++ project ++
      ".sock".toList = "/run/fraisier/".toList ++ (e.val ++ '/' :: installerSock project) :=
    hassoc "/run/fraisier/".toList "unit-installer-".toList ".sock".toList
  unfold unitInstallerSocketPath
  rw [htext, of_run, components_append, components_single hslash hkept]
  rfl

/-- The last component of a unit installer's socket. -/
theorem unitInstallerSocketPath_last (project : Str) (e : SafeName) :
    (unitInstallerSocketPath project e).parts.getLast? =
      some (basename ("unit-installer-".toList ++ project) ++ ".sock".toList) := by
  have hbase : basename (installerSock project) =
      basename ("unit-installer-".toList ++ project) ++ ".sock".toList :=
    basename_append (by decide)
  have hkept : Kept (basename (installerSock project)) := hbase ▸ kept_sock _
  rw [unitInstallerSocketPath_eq, ← hbase, List.getLast?_cons_cons, List.getLast?_cons_cons,
    List.getLast?_cons, getLast?_components hkept]
  rfl

/-- A pgBackRest helper's socket is not a unit installer's. -/
theorem helper_ne_installer (project : Str) (f e e' : SafeName) :
    pgbackrestHelperSocketPath project f e ≠ unitInstallerSocketPath project e' := by
  intro h
  have hlast := congrArg (·.parts.getLast?) h
  simp only [pgbackrestHelperSocketPath_last, unitInstallerSocketPath_last,
    Option.some.injEq] at hlast
  by_cases hslash : '/' ∈ project
  · -- both end in the project's basename and more, but not in equally much more
    rw [basename_append_of_mem hslash, basename_append_of_mem hslash] at hlast
    have hlength := congrArg List.length (List.append_cancel_left hlast)
    have hsock : ".sock".toList.length = 5 := by decide
    simp only [helperTail, dashed_cons, List.length_cons, List.length_append, hsock] at hlength
    omega
  · have hpg : '/' ∉ "pgbackrest-".toList := by decide
    have hunit : '/' ∉ "unit-installer-".toList := by decide
    rw [basename_of_notMem (by simp only [List.mem_append, hpg, hslash, or_self, not_false_iff]),
      basename_of_notMem (by simp only [List.mem_append, hunit, hslash, or_self, not_false_iff])]
      at hlast
    have hhead := congrArg List.head? hlast
    exact absurd hhead (by
      rw [List.append_assoc, List.append_assoc]
      change some 'p' ≠ some 'u'
      decide)

/-- The sockets that are named after an owner without a choice. -/
inductive Listens (p : Project) : Owner → PurePath → Prop
  | deploy {f e : SafeName} (h : ¬p.Chooses f e) : Listens p (.pair f e)
      ⟨['/'], ["run".toList, "fraisier".toList, dashed [fraisier, f, e], "deploy.sock".toList]⟩
  | pgbackrest (f e : SafeName) :
      Listens p (.pair f e) (pgbackrestHelperSocketPath p.name f e)
  | installer (e : SafeName) : Listens p (.environment e) (unitInstallerSocketPath p.name e)

/-- A derived deploy socket is in a directory of its own. -/
theorem deploy_ne_helper (directory project : Str) (f e : SafeName) :
    (⟨['/'], ["run".toList, "fraisier".toList, directory, "deploy.sock".toList]⟩ : PurePath) ≠
      pgbackrestHelperSocketPath project f e := by
  intro h
  have hlast := congrArg (·.parts.getLast?) h
  rw [pgbackrestHelperSocketPath_last] at hlast
  have htail : "deploy.sock".toList =
      basename ("pgbackrest-".toList ++ project) ++ helperTail f e := Option.some.inj hlast
  have hdash : '-' ∉ "deploy.sock".toList := by decide
  exact hdash (htail ▸ List.mem_append_right _ List.mem_cons_self)

/-- The deploy socket is never the unit installer's. -/
theorem deploy_ne_installer (directory project : Str) (e : SafeName) :
    (⟨['/'], ["run".toList, "fraisier".toList, directory, "deploy.sock".toList]⟩ : PurePath) ≠
      unitInstallerSocketPath project e := by
  intro h
  rw [unitInstallerSocketPath_eq] at h
  injection h with _ hparts
  simp only [List.cons.injEq, true_and] at hparts
  -- the first component of the installer's part starts like the text
  obtain ⟨t, ht⟩ : ∃ t, installerSock project = 'u' :: 'n' :: t := ⟨_, rfl⟩
  have hfirst : (installerSock project).takeWhile (· ≠ '/') =
      'u' :: 'n' :: t.takeWhile (· ≠ '/') := by
    rw [ht, List.takeWhile_cons_of_pos (by decide), List.takeWhile_cons_of_pos (by decide)]
  have hkept : Kept ((installerSock project).takeWhile (· ≠ '/')) := by
    rw [hfirst]
    exact ⟨List.cons_ne_nil _ _, fun h => by injection h; contradiction⟩
  have hmem := firstComponent_mem hkept
  rw [← hparts.2, hfirst, List.mem_singleton] at hmem
  exact absurd (Option.some.inj (congrArg List.head? hmem)) (by decide)

/-- Two owners with one derived socket meet. -/
theorem listens_meets {path : PurePath} (h : Listens p o path) (h' : Listens p o' path)
    (hne : o ≠ o') : Clash p o o' ∨ Clash p o' o := by
  generalize hpath : path = path' at h'
  -- The cases are the kinds of the two sockets.
  cases h with
  | deploy hd =>
    cases h' with
    | deploy hd' =>
      injection hpath with _ hparts
      simp only [List.cons.injEq, true_and, and_true] at hparts
      exact meets_of_dashed hne (dashed_left hparts)
    | pgbackrest f' e' => exact absurd hpath (deploy_ne_helper _ _ _ _)
    | installer e' => exact absurd hpath (deploy_ne_installer _ _ _)
  | pgbackrest f e =>
    cases h' with
    | deploy hd' => exact absurd hpath.symm (deploy_ne_helper _ _ _ _)
    | pgbackrest f' e' =>
      have hlast := congrArg (·.parts.getLast?) hpath
      simp only [pgbackrestHelperSocketPath_last, Option.some.injEq] at hlast
      have htail := (List.cons.inj (List.append_cancel_left hlast)).2
      exact meets_of_dashed hne (List.append_cancel_right htail)
    | installer e' => exact absurd hpath (helper_ne_installer _ _ _ _)
  | installer e =>
    cases h' with
    | pgbackrest f' e' => exact absurd hpath.symm (helper_ne_installer _ _ _ _)
    | deploy hd' => exact absurd hpath.symm (deploy_ne_installer _ _ _)
    | installer e' =>
      rw [unitInstallerSocketPath_eq, unitInstallerSocketPath_eq] at hpath
      injection hpath with _ hparts
      simp only [List.cons.injEq, true_and] at hparts
      have he : e = e' := Subtype.ext hparts.1
      exact absurd (by rw [he]) hne

/-- A socket of an owner is derived, or its path is chosen. -/
theorem mem_socketPaths {path : PurePath} (h : path ∈ o.socketPaths p) :
    (∃ f e, o = .pair f e ∧ p.Chooses f.val e ∧ path = deploySocketPath (p.config f e) e f) ∨
      Listens p o path := by
  cases o with
  | pair f e =>
    -- A pair has two sockets, of which only the first can be chosen.
    simp only [Owner.socketPaths, List.mem_cons, List.not_mem_nil, or_false] at h
    obtain rfl | rfl := h
    · by_cases hchooses : p.Chooses f.val e
      · exact .inl ⟨f, e, rfl, hchooses, rfl⟩
      · rw [deploySocketPath_derived hchooses]
        exact .inr (.deploy hchooses)
    · exact .inr (.pgbackrest f e)
  | environment e =>
    simp only [Owner.socketPaths, List.mem_singleton] at h
    exact .inr (h ▸ .installer e)
  | entry e n => exact absurd h List.not_mem_nil

/-! ## Owners apart -/

/-- Two owners that share something meet. -/
theorem meets_of_shares (h : Shares p o o') (hne : o ≠ o') : Clash p o o' ∨ Clash p o' o := by
  obtain ⟨n, hn, hn'⟩ | ⟨path, hpath, hpath'⟩ := h
  · obtain ⟨f, e, rfl, hchooses, hdeploy⟩ | ⟨s, x, hs, rfl⟩ := mem_unitNames hn
    · exact .inl (.chosen hchooses (.inl ⟨n, hdeploy, hn'⟩))
    · obtain ⟨f, e, rfl, hchooses, hdeploy⟩ | ⟨s', x', hs', heq⟩ := mem_unitNames hn'
      · exact .inr (.chosen hchooses (.inl ⟨_, hdeploy, hn⟩))
      · obtain ⟨rfl, rfl⟩ := ext_inj heq
        exact derived_meets hs hs' hne
  · obtain ⟨f, e, rfl, hchooses, rfl⟩ | hlistens := mem_socketPaths hpath
    · exact .inl (.chosen hchooses (.inr hpath'))
    · obtain ⟨f, e, rfl, hchooses, rfl⟩ | hlistens' := mem_socketPaths hpath'
      · exact .inr (.chosen hchooses (.inr hpath))
      · exact listens_meets hlistens hlistens' hne

/-- Sharing a name goes both ways. -/
theorem Shares.symm (h : Shares p o o') : Shares p o' o := by
  obtain ⟨n, hn, hn'⟩ | ⟨path, hpath, hpath'⟩ := h
  · exact .inl ⟨n, hn', hn⟩
  · exact .inr ⟨path, hpath', hpath⟩

/-- The unit of a helper is one of its owner's. -/
theorem Helper.mem_unitNames (h : Helper o words) :
    dashed (fraisier :: p.name :: words) ++ dotService ∈ o.unitNames p := by
  cases h <;> simp [Owner.unitNames, pgbackrestHelperUnitNames, preMigratePruneUnitNames,
    unitInstallerUnitNames, retentionUnitNames]

/-- Two helpers of one name share it. -/
theorem Helper.shares (h : Helper o words) (h' : Helper o' words')
    (heq : dashed words = dashed words') : Shares p o o' := by
  obtain ⟨word, rest, rfl⟩ := h.exists_cons
  obtain ⟨word', rest', rfl⟩ := h'.exists_cons
  refine .inl ⟨_, h.mem_unitNames, ?_⟩
  rw [dashed_congr fraisier (dashed_congr p.name heq)]
  exact h'.mem_unitNames

/-- Two owners that meet share something. -/
theorem Clash.shares (h : Clash p o o') : Shares p o o' := by
  -- A deploy socket without a chosen name is among its owner's units.
  have hsocket : ∀ {f e : SafeName}, ¬p.Chooses f e →
      dashed [fraisier, f, e] ++ dotSocket ∈ (Owner.pair f e).unitNames p := fun hd => by
    rw [← deploySocketName_derived hd]
    exact List.mem_append_left _ List.mem_cons_self
  have hretain : ∀ {e e' : Str} {n n' : RetainName},
      Straddles '-' e (dashed ["retain".toList, n]) e' (dashed ["retain".toList, n']) →
        Shares p (.entry e n) (.entry e' n') := fun hs =>
    Helper.shares (.entry _ _) (.entry _ _) (by
      rw [dashed_cons, dashed_cons]
      exact append_cons_eq_iff.mpr (.inr (.inl hs)))
  -- The cases are the ways of meeting.
  cases h with
  | @dash f e f' e' hs =>
    have heq : f.val ++ '-' :: e.val = f'.val ++ '-' :: e'.val :=
      append_cons_eq_iff.mpr (.inr (.inl hs))
    refine Helper.shares (.prune f e) (.prune f' e') ?_
    calc dashed [f.val, e, "pre-migrate-prune".toList]
        = (f.val ++ '-' :: e.val) ++ '-' :: "pre-migrate-prune".toList := by
          rw [dashed_cons, dashed_cons, dashed_singleton, List.append_assoc, List.cons_append]
      _ = (f'.val ++ '-' :: e'.val) ++ '-' :: "pre-migrate-prune".toList := by rw [heq]
      _ = dashed [f'.val, e', "pre-migrate-prune".toList] := by
          rw [dashed_cons, dashed_cons, dashed_singleton, List.append_assoc, List.cons_append]
  | @underscore f e f' e' hs =>
    have heq : f.val ++ '_' :: e.val = f'.val ++ '_' :: e'.val :=
      append_cons_eq_iff.mpr (.inr (.inl hs))
    -- An underscore joins both pairs to the same application.
    have happ : appServiceName p.name f e {} = appServiceName p.name f' e' {} := by
      simp [appServiceName, heq]
    refine .inl ⟨appServiceName p.name f e {}, ?_, ?_⟩
    · exact List.mem_append_right _ List.mem_cons_self
    · exact List.mem_append_right _ (happ ▸ List.mem_cons_self)
  | @helperSocket f e f' e' hd heq =>
    refine .inl ⟨_, hsocket hd, ?_⟩
    rw [dashed_congr fraisier heq]
    simp [Owner.unitNames, pgbackrestHelperUnitNames]
  | @installerSocket f e e' hd heq =>
    refine .inl ⟨_, hsocket hd, ?_⟩
    rw [dashed_congr fraisier heq]
    exact List.mem_cons_self
  | chosen hchooses h =>
    obtain ⟨n, hn, hn'⟩ | hpath := h
    · exact .inl ⟨n, List.mem_append_left _ hn, hn'⟩
    · exact .inr ⟨_, List.mem_cons_self, hpath⟩
  | helperEntry heq => exact Helper.shares (.pgbackrest _ _) (.entry _ _) heq
  | pruneEntry heq => exact Helper.shares (.prune _ _) (.entry _ _) heq
  | installerEntry heq => exact Helper.shares (.installer _) (.entry _ _) heq
  | retain he hn => exact hretain ⟨"retain".toList, he, by simp [hn]⟩
  | @retainMore e e' s n n' he hn =>
    refine hretain ⟨"retain-".toList ++ s, ?_, ?_⟩
    · rw [he]
      exact List.append_assoc _ _ _
    · rw [dashed_cons, dashed_cons, dashed_singleton, dashed_singleton, hn]
      simp

/-- Different owners share something exactly when they meet. -/
theorem shares_iff (hne : o ≠ o') : Shares p o o' ↔ Clash p o o' ∨ Clash p o' o := by
  constructor
  · exact fun h => meets_of_shares h hne
  · rintro (h | h)
    · exact h.shares
    · exact h.shares.symm

/-- What is pruned belongs to owners that are not on the host. -/
theorem owner_not_onHost {scopesForServer : Str → List Scope} {server : Str}
    {units : List ForeignUnit} {commands : List (List Str)} {n : Str}
    (hnamed : ∀ unit ∈ units, Named p unit)
    (h : pruneForeignUnits scopesForServer (some server) units = .ok commands)
    (hn : disableNow n ∈ commands) :
    ∃ o ∈ p.owners, ¬o.OnHost (scopesForServer server) ∧ n ∈ o.unitNames p := by
  obtain ⟨server', heq, unit, hunit, rfl, hforeign⟩ := disabled_is_foreign h hn
  obtain rfl := Option.some.inj heq
  obtain ⟨f, e, howner, hf, he, hmem⟩ := hnamed unit hunit
  refine ⟨.pair f e, howner, ?_, hmem⟩
  rw [← hf, ← he] at hforeign
  simp [Owner.OnHost, hforeign]

/-- A project's owners have names of their own exactly when no two different ones meet. -/
theorem names_apart_iff (p : Project) :
    NamesApart p ↔ ∀ o ∈ p.owners, ∀ o' ∈ p.owners, o ≠ o' → ¬Clash p o o' := by
  constructor
  · intro h o ho o' ho' hne hmeets
    exact h.distinct o ho o' ho' hne hmeets.shares
  · intro h
    -- Two owners that share a name clash.
    have hdistinct : ∀ o ∈ p.owners, ∀ o' ∈ p.owners, o ≠ o' → ¬Shares p o o' := by
      intro o ho o' ho' hne hshares
      obtain hmeets | hmeets := (shares_iff hne).mp hshares
      · exact h o ho o' ho' hne hmeets
      · exact h o' ho' o ho hne.symm hmeets
    refine ⟨hdistinct, fun scopesForServer server units commands hnamed hprune o ho hhost n hn
      hdisabled => ?_⟩
    obtain ⟨o', ho', hforeign, hn'⟩ := owner_not_onHost hnamed hprune hdisabled
    have hne : o ≠ o' := fun heq => hforeign (heq ▸ hhost)
    exact hdistinct o ho o' ho' hne (.inl ⟨n, hn, hn'⟩)

/-- Two fraises whose names meet: `a-b` in `c`, and `a` in `b-c`. -/
def straddling : Project where
  name := "p".toList
  config _ _ := {}
  owners := [.pair ⟨"a-b".toList, by decide⟩ ⟨"c".toList, by decide⟩,
    .pair ⟨"a".toList, by decide⟩ ⟨"b-c".toList, by decide⟩]

/-- They listen on one deploy socket. -/
theorem straddling_share_a_socket : ¬∀ p, NamesApart p := by
  intro h
  refine (h straddling).distinct _ List.mem_cons_self _
    (List.mem_cons_of_mem _ List.mem_cons_self) (by simp) (.inr ?_)
  exact ⟨_, List.mem_cons_self, by decide⟩

end Fraisier.Scaffold
