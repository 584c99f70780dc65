import Mathlib.Data.List.Basic
import Fraisier.Lib.Fallible
import Fraisier.Config.PgConn

/-!
# Clusters that are restored

`validate_restore_clusters` of `config/_validation.py` refuses a configuration in which a cluster
that one environment restores belongs to another one too, by its name or by the endpoint of a URL.
It looks at the `admin_url` of an environment that restores, and at the first URL with a known
endpoint of one that does not. `one_owner_iff` says when a configuration that is accepted has one
owner for each cluster: none of the URLs that are not looked at reaches it.
-/

namespace Fraisier.Config

open Fraisier.Lib Str Fallible

/-! ## Values of the configuration -/

/-- A value that YAML loads, as far as it is read here. A mapping and a value of another kind come
with what `str` makes of them. -/
inductive Value
  | null
  | bool (b : Bool)
  | int (n : ℤ)
  | str (s : Str)
  /-- `!envvar NAME`. -/
  | lazy (name : Str)
  | dict (text : Str) (items : List (Str × Value))
  | other (text : Str) (truthy : Bool)

namespace Value

/-- The truth of a value. A `LazyEnv` is true without being resolved. -/
def truthy : Value → Bool
  | null => false
  | bool b => b
  | int n => n ≠ 0
  | str s => s ≠ []
  | lazy _ => true
  | dict _ items => !items.isEmpty
  | other _ truthy => truthy

/-- `items.get(key)`. -/
def get (items : List (Str × Value)) (key : String) : Value := (items.lookup key.toList).getD .null

/-- The mapping, if the value is one. -/
def asDict : Value → Option (List (Str × Value))
  | dict _ items => some items
  | _ => none

/-- `(value or {}).items()`: `none` at an `AttributeError`. -/
def itemsOrEmpty (v : Value) : Option (List (Str × Value)) :=
  if v.truthy then v.asDict else some []

/-- `str(value)`: `none` when an environment variable is not set. -/
def text (environ : Str → Option Str) : Value → Option Str
  | null => some "None".toList
  | bool b => some (if b then "True" else "False").toList
  | int n => some (toString n).toList
  | str s => some s
  | lazy name => environ name
  | dict text _ => some text
  | other text _ => some text

/-- `a == b`: `none` when an environment variable is not set. A `LazyEnv` is its variable, compared
with another one or with a string. -/
def same (environ : Str → Option Str) : Value → Value → Option Bool
  | lazy a, lazy b => do some (decide ((← environ a) = (← environ b)))
  | lazy a, str s => do some (decide ((← environ a) = s))
  | str s, lazy a => do some (decide ((← environ a) = s))
  | null, null => some true
  | bool a, bool b => some (a = b)
  | bool a, int n => some (n = if a then 1 else 0)
  | int n, bool a => some (n = if a then 1 else 0)
  | int m, int n => some (m = n)
  | str s, str t => some (s = t)
  | dict s _, dict t _ => some (s = t)
  | other s _, other t _ => some (s = t)
  | _, _ => some false

/-- Being the same goes both ways. -/
theorem same_comm (environ : Str → Option Str) (a b : Value) :
    a.same environ b = b.same environ a := by
  cases a <;> cases b <;> simp only [same, eq_comm]
  case lazy.lazy a b => cases environ a <;> cases environ b <;> simp [eq_comm]

end Value

/-! ## Environments with a database -/

/-- `(host, port)`. -/
abbrev Endpoint := Str × ℤ

/-- `_endpoint`: the endpoint, if it is known, or `none` when the port is not a number. -/
def endpoint : Value → Option (Option Endpoint)
  | .str url =>
    match PgConn.parse url with
    | none => some none
    | some conn =>
      let host := match conn.get "hostaddr" with
        | some (c :: addr) => some (c :: addr)
        | _ => conn.host
      match host with
      | none | some [] => some none
      | some host =>
        if ',' ∈ host then some none
        else conn.port.map fun port => some (host, match port with
          | none | some 0 => 5432
          | some port => port)
  -- a `LazyEnv` is not resolved, and `str` of another value is no URL
  | _ => some none

/-- An environment with a `database` block. -/
structure DbEnv where
  fraise : Str
  env : Str
  server : Value
  db : List (Str × Value)

namespace DbEnv

/-- `restore`, if it is a mapping. -/
def restore (e : DbEnv) : Option (List (Str × Value)) := (Value.get e.db "restore").asDict

/-- `restore.get("source") == "pgbackrest"`. -/
def restores (environ : Str → Option Str) (e : DbEnv) : Option Bool :=
  match e.restore with
  | none => some false
  | some restore => (Value.get restore "source").same environ (.str "pgbackrest".toList)

/-- The name of the cluster. -/
def cluster (environ : Str → Option Str) (e : DbEnv) : Option Str :=
  match (Value.get (e.restore.getD []) "pgbackrest").asDict with
  | none => some []
  | some block => (Value.get block "cluster").text environ

def adminUrl (e : DbEnv) : Value := Value.get e.db "admin_url"

def databaseUrl (e : DbEnv) : Value := Value.get e.db "database_url"

end DbEnv

/-- The environments of a `fraises` mapping that have a `database` block: `none` when something else
than a mapping stands where the environments do. -/
def databases (fraises : Value) : Option (List DbEnv) := do
  let found ← (← fraises.itemsOrEmpty).mapM fun (fraise, body) =>
    match body.asDict with
    | none => some []
    | some items => do
      let envs ← (Value.get items "environments").itemsOrEmpty
      some (envs.filterMap fun (env, body) => do
        let items ← body.asDict
        let db ← (Value.get items "database").asDict
        some { fraise := fraise, env := env, server := Value.get items "server", db := db })
  some found.flatten

/-! ## The scan -/

/-- An entry of `restoring`. -/
structure Restoring where
  env : DbEnv
  cluster : Str
  endpoint : Option Endpoint

/-- An entry of `others`. -/
structure Other where
  env : DbEnv
  endpoint : Endpoint

/-- What an environment is listed as. -/
inductive Role
  | restoring (r : Restoring)
  | other (o : Other)
  /-- It does not restore, and none of its URLs has a known endpoint. -/
  | unlisted

/-- The entry of an environment: `none` when it raises. -/
def DbEnv.role (environ : Str → Option Str) (e : DbEnv) : Option Role := do
  if ← e.restores environ then
    let cluster ← e.cluster environ
    let endpoint ← endpoint e.adminUrl
    some (.restoring { env := e, cluster := cluster, endpoint := endpoint })
  else
    match ← endpoint e.adminUrl with
    | some known => some (.other { env := e, endpoint := known })
    | none => match ← endpoint e.databaseUrl with
      | some known => some (.other { env := e, endpoint := known })
      | none => some .unlisted

def Role.restoring? : Role → Option Restoring
  | .restoring r => some r
  | _ => none

def Role.other? : Role → Option Other
  | .other o => some o
  | _ => none

/-- An error, with the two environments that it names. -/
inductive ClusterError
  | sameCluster (a b : Restoring)
  | sameEndpoint (a b : Restoring)
  | alsoUses (a : Restoring) (b : Other)

/-- Two environments that restore. -/
def pairErrors (environ : Str → Option Str) (a b : Restoring) : Option (List ClusterError) := do
  let same ← b.env.server.same environ a.env.server
  some (if same ∧ b.cluster = a.cluster then [.sameCluster a b]
    else if same ∧ a.endpoint.isSome ∧ a.endpoint = b.endpoint then [.sameEndpoint a b]
    else [])

/-- One that restores, and one that does not. -/
def otherErrors (environ : Str → Option Str) (a : Restoring) (b : Other) :
    Option (List ClusterError) := do
  let same ← b.env.server.same environ a.env.server
  some (if same ∧ a.endpoint = some b.endpoint then [.alsoUses a b] else [])

/-- The errors of all pairs. -/
def clusterErrors (environ : Str → Option Str) : List Restoring → List Other →
    Option (List ClusterError)
  | [], _ => some []
  | a :: restoring, others => do
    let pairs ← restoring.mapM (pairErrors environ a)
    let uses ← others.mapM (otherErrors environ a)
    let rest ← clusterErrors environ restoring others
    some (pairs.flatten ++ uses.flatten ++ rest)

/-- `validate_restore_clusters`: the errors of its `ValidationError`, none when it accepts, or `none`
when another exception is raised. -/
def validateRestoreClusters (environ : Str → Option Str) (fraises : Value) :
    Option (List ClusterError) := do
  let roles ← (← databases fraises).mapM (DbEnv.role environ)
  clusterErrors environ (roles.filterMap Role.restoring?) (roles.filterMap Role.other?)

/-! ## One owner -/

/-- The endpoint of a URL, when it is known. -/
def knownEndpoint (url : Value) : Option Endpoint := (endpoint url).join

variable {environ : Str → Option Str} {a b : DbEnv} {E : Endpoint}

/-- The cluster that `a` restores at `E` is on the server of `b`. -/
structure RestoresBeside (environ : Str → Option Str) (a b : DbEnv) (E : Endpoint) : Prop where
  restores : a.restores environ = some true
  known : knownEndpoint a.adminUrl = some E
  server : b.server.same environ a.server = some true

/-- The cluster that `a` restores is not one of `b`. -/
def Apart (environ : Str → Option Str) (a b : DbEnv) : Prop :=
  ∀ E, RestoresBeside environ a b E →
    knownEndpoint b.adminUrl ≠ some E ∧ knownEndpoint b.databaseUrl ≠ some E ∧
      (b.restores environ = some true → b.cluster environ ≠ a.cluster environ)

/-- The `database_url` of `b`, when it is not looked at, does not reach the cluster that `a`
restores. -/
def UnreadApart (environ : Str → Option Str) (a b : DbEnv) : Prop :=
  ∀ E, RestoresBeside environ a b E →
    b.restores environ = some true ∨ (knownEndpoint b.adminUrl).isSome = true →
      knownEndpoint b.databaseUrl ≠ some E

/-! ### What is listed -/

/-- An environment that restores has the role of one. -/
theorem DbEnv.role_of_restores {r : Role} (h : a.role environ = some r)
    (hrestores : a.restores environ = some true) :
    ∃ x : Restoring, r = .restoring x ∧ x.env = a ∧ a.cluster environ = some x.cluster ∧
      knownEndpoint a.adminUrl = x.endpoint := by
  simp only [role, hrestores, Option.bind_eq_bind, Option.bind_some, if_true] at h
  obtain ⟨cluster, hcluster, h⟩ := Option.bind_eq_some_iff.mp h
  obtain ⟨ep, hep, h⟩ := Option.bind_eq_some_iff.mp h
  obtain rfl := Option.some.inj h
  exact ⟨_, rfl, rfl, hcluster, by rw [knownEndpoint, hep]; rfl⟩

/-- An environment that does not restore is listed under the first URL with a known endpoint. -/
theorem DbEnv.role_of_not_restores {r : Role} (h : a.role environ = some r)
    (hrestores : a.restores environ = some false) :
    match (knownEndpoint a.adminUrl).or (knownEndpoint a.databaseUrl) with
    | some known => ∃ y : Other, r = .other y ∧ y.env = a ∧ y.endpoint = known
    | none => r = .unlisted := by
  simp only [role, hrestores, Option.bind_eq_bind, Option.bind_some, Bool.false_eq_true,
    if_false] at h
  obtain ⟨admin, hadmin, h⟩ := Option.bind_eq_some_iff.mp h
  have hknown : knownEndpoint a.adminUrl = admin := by rw [knownEndpoint, hadmin]; rfl
  rw [hknown]
  -- The admin URL goes before the database's own.
  cases admin with
  | some known =>
    obtain rfl := Option.some.inj h
    exact ⟨_, rfl, rfl, rfl⟩
  | none =>
    dsimp only at h
    obtain ⟨database, hdatabase, h⟩ := Option.bind_eq_some_iff.mp h
    have hknown' : knownEndpoint a.databaseUrl = database := by rw [knownEndpoint, hdatabase]; rfl
    rw [hknown', Option.none_or]
    cases database with
    | some known =>
      obtain rfl := Option.some.inj h
      exact ⟨_, rfl, rfl, rfl⟩
    | none => exact (Option.some.inj h).symm

/-! ### What no error means -/

/-- A relation between any two results is one between any two arguments. -/
theorem pairwise_of_mapM {α β : Type} {f : α → Option β} {R : β → β → Prop} {xs : List α}
    {ys : List β} (h : xs.mapM f = some ys) (hpairs : ys.Pairwise R) :
    xs.Pairwise fun x x' => ∃ y y', f x = some y ∧ f x' = some y' ∧ R y y' := by
  induction xs generalizing ys with
  | nil => exact .nil
  | cons x xs ih =>
    obtain ⟨y, ys', hy, hys', rfl⟩ := mapM_cons_some h
    obtain ⟨hy', hrest⟩ := List.pairwise_cons.mp hpairs
    refine .cons (fun x' hx' => ?_) (ih hys' hrest)
    obtain ⟨y', hmem, hx'⟩ := mem_of_mapM hys' hx'
    exact ⟨y, y', hy, hx', hy' y' hmem⟩

/-- Where all errors together are none, each has none. -/
theorem eq_nil_of_flatten_mapM {α : Type} {f : α → Option (List ClusterError)} {xs : List α}
    {ys : List (List ClusterError)} (h : xs.mapM f = some ys) (hnil : ys.flatten = []) {x : α}
    (hx : x ∈ xs) : f x = some [] := by
  obtain ⟨y, hy, hfx⟩ := mem_of_mapM h hx
  rw [hfx, List.flatten_eq_nil_iff.mp hnil y hy]

/-- Without an error there is none in any pair. -/
theorem clusterErrors_nil {restoring : List Restoring} {others : List Other}
    (h : clusterErrors environ restoring others = some []) :
    (restoring.Pairwise fun x y => pairErrors environ x y = some []) ∧
      ∀ x ∈ restoring, ∀ y ∈ others, otherErrors environ x y = some [] := by
  -- Induction on the environments that restore, each compared with those after it and with the
  -- others.
  induction restoring with
  | nil => exact ⟨.nil, nofun⟩
  | cons x restoring ih =>
    rw [clusterErrors] at h
    obtain ⟨pairs, hpairs, h⟩ := Option.bind_eq_some_iff.mp h
    obtain ⟨uses, huses, h⟩ := Option.bind_eq_some_iff.mp h
    obtain ⟨rest, hrest, h⟩ := Option.bind_eq_some_iff.mp h
    obtain ⟨hboth, hnil⟩ := List.append_eq_nil_iff.mp (Option.some.inj h)
    obtain ⟨hpairsNil, husesNil⟩ := List.append_eq_nil_iff.mp hboth
    obtain ⟨ihpairs, ihuses⟩ := ih (hnil ▸ hrest)
    refine ⟨.cons (fun y hy => eq_nil_of_flatten_mapM hpairs hpairsNil hy) ihpairs,
      fun z hz y hy => ?_⟩
    obtain rfl | hz := List.mem_cons.mp hz
    · exact eq_nil_of_flatten_mapM huses husesNil hy
    · exact ihuses z hz y hy

/-- Two restoring environments without errors are on different clusters. -/
theorem pairErrors_nil {x y : Restoring} (h : pairErrors environ x y = some [])
    (hserver : y.env.server.same environ x.env.server = some true) :
    y.cluster ≠ x.cluster ∧ (x.endpoint.isSome = true → x.endpoint ≠ y.endpoint) := by
  simp only [pairErrors, hserver, Option.bind_eq_bind, Option.bind_some, true_and] at h
  split at h
  · cases h
  · rename_i hcluster
    split at h
    · cases h
    · rename_i hendpoint
      exact ⟨hcluster, fun hsome heq => hendpoint ⟨hsome, heq⟩⟩

/-- A restoring environment without errors is at no other's endpoint. -/
theorem otherErrors_nil {x : Restoring} {y : Other} (h : otherErrors environ x y = some [])
    (hserver : y.env.server.same environ x.env.server = some true) :
    x.endpoint ≠ some y.endpoint := by
  simp only [otherErrors, hserver, Option.bind_eq_bind, Option.bind_some, true_and] at h
  split at h
  · cases h
  · assumption

/-! ### Two environments -/

/-- What the validator has found of two entries, of which the first restores. -/
structure Checked (environ : Str → Option Str) (x y : Role) : Prop where
  pair : ∀ r r', x = .restoring r → y = .restoring r' →
    r'.env.server.same environ r.env.server = some true →
      r'.cluster ≠ r.cluster ∧ (r.endpoint.isSome = true → r.endpoint ≠ r'.endpoint)
  other : ∀ r o, x = .restoring r → y = .other o →
    o.env.server.same environ r.env.server = some true → r.endpoint ≠ some o.endpoint

/-- The URLs that are looked at, and the cluster's name, are apart. -/
theorem Checked.apart_iff {x y : Role} (h : Checked environ x y) (hx : a.role environ = some x)
    (hy : b.role environ = some y) : Apart environ a b ↔ UnreadApart environ a b := by
  constructor
  · exact fun hapart E hE _ => (hapart E hE).2.1
  intro hunread E hE
  obtain ⟨r, rfl, hr, hcluster, hendpoint⟩ := DbEnv.role_of_restores hx hE.restores
  have hknown : r.endpoint = some E := hendpoint.symm.trans hE.known
  -- The other environment restores too, or is only used.
  cases hb : b.restores environ with
  | none => simp [DbEnv.role, hb] at hy
  | some restores =>
    cases restores with
    | true =>
      obtain ⟨r', rfl, hr', hcluster', hendpoint'⟩ := DbEnv.role_of_restores hy hb
      obtain ⟨hname, haddress⟩ := h.pair r r' rfl rfl (by rw [hr, hr']; exact hE.server)
      refine ⟨fun heq => ?_, hunread E hE (.inl hb), fun _ heq => ?_⟩
      · exact haddress (by rw [hknown]; rfl) (hknown.trans (heq.symm.trans hendpoint'))
      · rw [hcluster, hcluster'] at heq
        exact hname (Option.some.inj heq)
    | false =>
      have hlisted := DbEnv.role_of_not_restores hy hb
      have hother : ∀ known, (knownEndpoint b.adminUrl).or (knownEndpoint b.databaseUrl) =
          some known → known ≠ E := by
        rintro known hfirst rfl
        rw [hfirst] at hlisted
        obtain ⟨o, rfl, ho, hoendpoint⟩ := hlisted
        exact h.other r o rfl rfl (by rw [hr, ho]; exact hE.server) (by rw [hknown, hoendpoint])
      refine ⟨fun heq => ?_, fun heq => ?_, fun hfalse => by cases hfalse⟩
      · exact hother E (by rw [heq]; rfl) rfl
      · -- the second URL is looked at only if the endpoint of the first is not known
        cases hadmin : knownEndpoint b.adminUrl with
        | none => exact hother E (by rw [hadmin, heq]; rfl) rfl
        | some known => exact hunread E hE (.inr (by rw [hadmin]; rfl)) heq

/-- The entries of an accepted configuration are checked in both directions. -/
theorem checked_of_accepted {roles : List Role}
    (h : clusterErrors environ (roles.filterMap Role.restoring?) (roles.filterMap Role.other?) =
      some []) : roles.Pairwise fun x y => Checked environ x y ∧ Checked environ y x := by
  obtain ⟨hpairs, hothers⟩ := clusterErrors_nil h
  have hboth := List.pairwise_filterMap.mp hpairs
  -- Every restoring one is checked against every other one.
  have huses : ∀ x ∈ roles, ∀ y ∈ roles, ∀ r o, x = .restoring r → y = .other o →
      otherErrors environ r o = some [] := by
    rintro x hx y hy r o rfl rfl
    exact hothers r (List.mem_filterMap.mpr ⟨_, hx, rfl⟩) o (List.mem_filterMap.mpr ⟨_, hy, rfl⟩)
  have hall : roles.Pairwise fun x y => (∀ r o, x = .restoring r → y = .other o →
      otherErrors environ r o = some []) ∧ ∀ r o, y = .restoring r → x = .other o →
        otherErrors environ r o = some [] :=
    List.pairwise_of_forall_mem_list fun x hx y hy => ⟨huses x hx y hy, huses y hy x hx⟩
  refine (hboth.and hall).imp ?_
  rintro x y ⟨hpair, hxy, hyx⟩
  refine ⟨⟨?_, fun r o hx hy => otherErrors_nil (hxy r o hx hy)⟩,
    ⟨?_, fun r o hy hx => otherErrors_nil (hyx r o hy hx)⟩⟩
  -- A pair is checked once, and the check goes both ways.
  · rintro r r' rfl rfl
    exact pairErrors_nil (hpair r rfl r' rfl)
  · rintro r' r rfl rfl hserver
    rw [Value.same_comm] at hserver
    obtain ⟨hname, haddress⟩ := pairErrors_nil (hpair r rfl r' rfl) hserver
    refine ⟨hname.symm, fun hsome heq => ?_⟩
    rw [heq] at hsome
    exact haddress hsome heq.symm

/-- In a configuration that is accepted, the cluster that an environment restores is not one of
another environment's, exactly when no `database_url` that is not looked at reaches it. -/
theorem one_owner_iff {fraises : Value} {es : List DbEnv} (hes : databases fraises = some es)
    (haccepted : validateRestoreClusters environ fraises = some []) :
    (es.Pairwise fun a b => Apart environ a b ∧ Apart environ b a) ↔
      es.Pairwise fun a b => UnreadApart environ a b ∧ UnreadApart environ b a := by
  simp only [validateRestoreClusters, hes, Option.bind_eq_bind, Option.bind_some] at haccepted
  obtain ⟨roles, hroles, herrors⟩ := Option.bind_eq_some_iff.mp haccepted
  -- Where the validator has no error, its check of each pair says all but what it cannot read.
  have hchecked := pairwise_of_mapM hroles (checked_of_accepted herrors)
  constructor
  · intro hapart
    refine (hchecked.and hapart).imp ?_
    rintro a b ⟨⟨x, y, hx, hy, hxy, hyx⟩, hab, hba⟩
    exact ⟨(hxy.apart_iff hx hy).mp hab, (hyx.apart_iff hy hx).mp hba⟩
  · intro hunread
    refine (hchecked.and hunread).imp ?_
    rintro a b ⟨⟨x, y, hx, hy, hxy, hyx⟩, hab, hba⟩
    exact ⟨(hxy.apart_iff hx hy).mpr hab, (hyx.apart_iff hy hx).mpr hba⟩

/-! ## A cluster of two -/

/-- A mapping. -/
def mapping (items : List (String × Value)) : Value :=
  .dict [] (items.map fun item => (item.1.toList, item.2))

/-- Two fraises, of which the first one restores the cluster on port 5433; the other has these
entries in its database block. -/
def beside (db : List (String × Value)) : Value :=
  mapping
    [("api", mapping [("environments", mapping [("staging", mapping [("database", mapping
        [("admin_url", .str "postgresql://postgres@localhost:5433/postgres".toList),
          ("restore", mapping [("source", .str "pgbackrest".toList),
            ("pgbackrest", mapping [("cluster", .str "18/staging".toList)])])])])])]),
      ("worker", mapping [("environments", mapping [("staging", mapping
        [("database", mapping db)])])])]

/-- The database of the second fraise is in the cluster, and its `admin_url` is another one's. -/
def readElsewhere : List (String × Value) :=
  [("admin_url", .str "postgresql://postgres@localhost:5432/postgres".toList),
    ("database_url", .str "postgresql://worker@localhost:5433/worker".toList)]

/-- The second fraise restores a cluster of its own, and reads the first one's. -/
def restoresElsewhere : List (String × Value) :=
  readElsewhere ++ [("restore", mapping [("source", .str "pgbackrest".toList),
    ("pgbackrest", mapping [("cluster", .str "18/worker".toList)])])]

/-- Both configurations are accepted, and the restore replaces the other fraise's database. -/
theorem shared_cluster_accepted :
    [readElsewhere, restoresElsewhere].Forall fun db =>
      validateRestoreClusters (fun _ => none) (beside db) = some [] ∧
        ∃ es, databases (beside db) = some es ∧
          ¬es.Pairwise fun a b => Apart (fun _ => none) a b ∧ Apart (fun _ => none) b a := by
  -- The validator has no error for either configuration.
  have haccepted : ∀ db, (validateRestoreClusters (fun _ => none) (beside db)).any List.isEmpty =
      true → validateRestoreClusters (fun _ => none) (beside db) = some [] := by
    intro db h
    obtain ⟨errors, herrors, hempty⟩ := (Option.any_eq_true _ _).mp h
    rw [herrors, List.isEmpty_iff.mp hempty]
  -- An environment that restores and one on the server it replaces are not apart.
  have hshared : ∀ a b : DbEnv, a.restores (fun _ => none) = some true →
      knownEndpoint a.adminUrl = some ("localhost".toList, 5433) →
      b.server.same (fun _ => none) a.server = some true →
      knownEndpoint b.databaseUrl = some ("localhost".toList, 5433) →
      ¬[a, b].Pairwise fun a b => Apart (fun _ => none) a b ∧ Apart (fun _ => none) b a := by
    intro a b hrestores hknown hserver hreached hpairs
    have hapart := (List.pairwise_cons.mp hpairs).1 b List.mem_cons_self
    exact (hapart.1 _ ⟨hrestores, hknown, hserver⟩).2.1 hreached
  refine ⟨⟨haccepted _ (by decide +kernel), _, rfl, hshared _ _ ?_ ?_ ?_ ?_⟩,
    ⟨haccepted _ (by decide +kernel), _, rfl, hshared _ _ ?_ ?_ ?_ ?_⟩⟩ <;> decide +kernel

/-- The database of the second fraise is in another cluster. -/
def apartConfig : Value :=
  beside [("database_url", .str "postgresql://worker@localhost:5432/worker".toList)]

/-- The sample's environments are apart from each other. -/
theorem one_owner_iff_apart :
    ∃ es, databases apartConfig = some es ∧
      es.Pairwise fun a b => Apart (fun _ => none) a b ∧ Apart (fun _ => none) b a := by
  have haccepted : validateRestoreClusters (fun _ => none) apartConfig = some [] := by
    obtain ⟨errors, herrors, hempty⟩ := (Option.any_eq_true _ _).mp
      (show (validateRestoreClusters (fun _ => none) apartConfig).any List.isEmpty = true by
        decide +kernel)
    rw [herrors, List.isEmpty_iff.mp hempty]
  -- Neither environment can be reached by a restore of the other.
  have hunread : ∀ a b : DbEnv, knownEndpoint a.adminUrl = some ("localhost".toList, 5433) →
      knownEndpoint b.databaseUrl = some ("localhost".toList, 5432) →
      b.restores (fun _ => none) = some false →
      [a, b].Pairwise fun a b => UnreadApart (fun _ => none) a b ∧ UnreadApart (fun _ => none) b a := by
    intro a b hadmin hdatabase hrestores
    refine List.pairwise_pair.mpr ⟨fun E hE _ heq => ?_, fun E hE => ?_⟩
    · have h : some ("localhost".toList, (5433 : ℤ)) = some ("localhost".toList, 5432) :=
        hadmin.symm.trans (hE.known.trans (heq.symm.trans hdatabase))
      revert h
      decide
    · cases hrestores.symm.trans hE.restores
  refine ⟨_, rfl, (one_owner_iff rfl haccepted).mpr (hunread _ _ ?_ ?_ ?_)⟩ <;> decide +kernel

end Fraisier.Config
