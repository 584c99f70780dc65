import Fraisier.Config.DbUrl

/-!
# The password of a PostgreSQL URL

`move_password_to_env` of `dbops/_url.py` makes the URL that a child is given on its command line,
where every local user reads it. `movePasswordToEnv_spec` says that this URL is read as the one it
was made of, less the password, and that the password goes into `PGPASSWORD`. `PasswordApart` relates
two URLs that say the same but for a password, and their command lines are the same.

A password stands in the userinfo, in a parameter of the query, or in both, and each place is one
lemma: `takeUser_spec` and `dropPassword_of_read`.
-/

namespace Fraisier.Config

open Fraisier.Lib Str Fallible

/-! ## The function -/

/-- The keyword of the password. -/
def passwordKey : Str := "password".toList

/-- The password of the userinfo, and the netloc without it. -/
def takeUser (netloc : Str) : Option (Option Str × Str) := do
  let (userinfo, hostport) ← splitNetloc netloc
  let (user, colon, raw) := Str.partition ':' userinfo
  if colon then (decode raw).map fun password => (some password, user ++ '@' :: hostport)
  else some (none, netloc)

/-- The loop over the parameters: the last password, and the parameters that are kept. -/
def dropPassword (password : Option Str) : List Str → Option (Option Str × List Str)
  | [] => some (password, [])
  | param :: rest => do
    let (key, value) ← splitParam param
    let name ← decode key
    if name = passwordKey then do
      let value ← decode value
      dropPassword (some value) rest
    else do
      let (password, kept) ← dropPassword password rest
      some (password, param :: kept)

/-- The variable that carries a password; an empty password has none. -/
def passwordEnv (password : Str) : List (Str × Str) :=
  if password = [] then [] else [("PGPASSWORD".toList, password)]

/-- `move_password_to_env`: `none` when it raises `ValueError`. -/
def movePasswordToEnv (url : Str) : Option (Str × List (Str × Str)) :=
  match urlScheme url, splitUrl url with
  | some scheme, some (netloc, path, query) => do
    let (password, netloc) ← takeUser netloc
    let (password, kept) ← dropPassword password (queryParams query)
    match password with
    | none => some (url, [])
    | some password => some (joinUrl scheme netloc path kept, passwordEnv password)
  | _, _ => some (url, [])

example : movePasswordToEnv "postgresql://u:one@h/a?pass%77ord=t%77o&sslmode=disable".toList =
    some ("postgresql://u@h/a?sslmode=disable".toList,
      [("PGPASSWORD".toList, "two".toList)]) := by decide

/-! ## URLs that differ in a password -/

/-- Two netlocs that differ in the password of the userinfo at most. -/
def NetlocApart (netloc netloc' : Str) : Prop :=
  netloc = netloc' ∨ ∃ user raw raw' hostport, ':' ∉ user ∧
    netloc = user ++ ':' :: raw ++ '@' :: hostport ∧
    netloc' = user ++ ':' :: raw' ++ '@' :: hostport

/-- A parameter that sets the password, however its key is written. -/
def SetsPassword (param : Str) : Prop := decode (Str.partition '=' param).1 = some passwordKey

/-- Two parameters that differ in a password at most. -/
def ParamApart (param param' : Str) : Prop :=
  param = param' ∨ SetsPassword param ∧ SetsPassword param'

/-- Two URLs that differ in passwords at most: they are the same, or they are cut into parts that
are the same but for passwords, of which there is one. -/
def PasswordApart (url url' : Str) : Prop :=
  url = url' ∨ ∃ netloc netloc' path query query', urlScheme url = urlScheme url' ∧
    splitUrl url = some (netloc, path, query) ∧ splitUrl url' = some (netloc', path, query') ∧
    NetlocApart netloc netloc' ∧
    List.Forall₂ ParamApart (queryParams query) (queryParams query') ∧
    (netloc ≠ netloc' ∨ queryParams query ≠ queryParams query')

/-! ## The userinfo -/

variable {url url' argv netloc netloc' path query param param' hostport userinfo : Str}
  {params params' kept : List Str} {conn conn' server base : PgConn} {kvs : List (Str × Str)}
  {password : Option Str} {env : List (Str × Str)}

/-- Parameters without a password are all kept. -/
theorem filter_of_ne {l : List (Str × Str)} (h : ∀ kv ∈ l, kv.1 ≠ passwordKey) :
    l.filter (·.1 ≠ passwordKey) = l := by
  rw [List.filter_eq_self]
  intro kv hkv
  simpa using h kv hkv

/-- The hosts and the ports go over the parameters that are there already. -/
theorem PgConn.addHosts_params (h : conn.addHosts hostport = some server) :
    ∃ added : List (Str × Str), (∀ kv ∈ added, kv.1 ≠ passwordKey) ∧
      ∀ conn : PgConn, conn.addHosts hostport = some ⟨added ++ conn.params⟩ := by
  have hhost : "host".toList ≠ passwordKey := by decide
  have hport : "port".toList ≠ passwordKey := by decide
  unfold PgConn.addHosts at h ⊢
  by_cases hempty : hostport = []
  · exact ⟨[], by simp, fun conn => by rw [if_pos hempty]; rfl⟩
  · simp only [if_neg hempty] at h ⊢
    obtain ⟨pairs, hpairs, -⟩ := Option.bind_eq_some_iff.mp h
    -- What is added depends on the hosts alone, and holds no password.
    let hosts := if pairs.any (·.1 ≠ []) then
      [("host".toList, List.intercalate [','] (pairs.map (·.1)))] else []
    let ports := if pairs.any (·.2 ≠ []) then
      [("port".toList, List.intercalate [','] (pairs.map (·.2)))] else []
    refine ⟨ports ++ hosts, ?_, fun conn => ?_⟩
    · intro kv hkv
      obtain hkv | hkv := List.mem_append.mp hkv
      · unfold ports at hkv
        split at hkv
        · rw [List.mem_singleton.mp hkv]; exact hport
        · cases hkv
      · unfold hosts at hkv
        split at hkv
        · rw [List.mem_singleton.mp hkv]; exact hhost
        · cases hkv
    · simp only [hpairs, Option.bind_eq_bind, Option.bind_some]
      unfold hosts ports PgConn.set
      split <;> split <;> rfl

/-- A user and a host are told apart by the `@` between them. -/
theorem splitNetloc_join {user : Str} (huser : '@' ∉ user) (hhost : '@' ∉ hostport) :
    splitNetloc (user ++ '@' :: hostport) = some (user, hostport) := by
  unfold splitNetloc
  rw [partition_append_cons huser]
  exact if_neg hhost

/-- A netloc is a userinfo and its hosts, or hosts. -/
theorem splitNetloc_cases (h : splitNetloc netloc = some (userinfo, hostport)) :
    (userinfo = [] ∧ hostport = netloc ∧ '@' ∉ netloc) ∨
      (netloc = userinfo ++ '@' :: hostport ∧ '@' ∉ userinfo ∧ '@' ∉ hostport) := by
  unfold splitNetloc at h
  obtain ⟨hnot, hcut⟩ | ⟨a, b, hnetloc, ha, hcut⟩ := partition_cases '@' netloc
  · rw [hcut] at h
    obtain ⟨rfl, rfl⟩ := Prod.mk.inj (Option.some.inj h)
    exact .inl ⟨rfl, rfl, hnot⟩
  · rw [hcut] at h
    dsimp only at h
    split at h
    · cases h
    · next hb =>
      obtain ⟨rfl, rfl⟩ := Prod.mk.inj (Option.some.inj h)
      exact .inr ⟨hnetloc, ha, hb⟩

/-- A userinfo without a colon sets no password. -/
theorem addUser_plain (hcolon : ':' ∉ userinfo) (h : PgConn.addUser ⟨[]⟩ userinfo = some conn) :
    ∀ kv ∈ conn.params, kv.1 ≠ passwordKey := by
  have huser : "user".toList ≠ passwordKey := by decide
  unfold PgConn.addUser at h
  by_cases hempty : userinfo = []
  · rw [if_pos hempty] at h
    obtain rfl := Option.some.inj h
    simp
  · simp only [if_neg hempty, partition_of_notMem hcolon, Option.bind_eq_bind] at h
    obtain ⟨name, -, rfl⟩ := Option.map_eq_some_iff.mp (by simpa using h)
    intro kv hkv
    obtain rfl := List.mem_singleton.mp hkv
    exact huser

/-- A userinfo with a colon sets what the name before it sets, and the password. -/
theorem addUser_colon {name raw : Str} (hname : ':' ∉ name)
    (h : PgConn.addUser ⟨[]⟩ (name ++ ':' :: raw) = some conn) :
    ∃ password named, decode raw = some password ∧ PgConn.addUser ⟨[]⟩ name = some named ∧
      conn.params = (passwordKey, password) :: named.params := by
  unfold PgConn.addUser at h ⊢
  simp only [if_neg (List.append_ne_nil_of_right_ne_nil name (List.cons_ne_nil ':' raw)),
    partition_append_cons hname, partition_of_notMem hname, Option.bind_eq_bind, if_true] at h ⊢
  by_cases hempty : name = []
  · simp only [if_pos hempty, Option.bind_some] at h ⊢
    obtain ⟨password, hpassword, rfl⟩ := Option.map_eq_some_iff.mp h
    exact ⟨password, _, hpassword, rfl, rfl⟩
  · simp only [if_neg hempty] at h ⊢
    obtain ⟨named, hnamed, h⟩ := Option.bind_eq_some_iff.mp h
    obtain ⟨password, hpassword, rfl⟩ := Option.map_eq_some_iff.mp h
    exact ⟨password, named, hpassword, by simpa using hnamed, rfl⟩

/-- The netloc without its password is read as the netloc, less the password. -/
theorem takeUser_spec (h : readServer netloc = some server) :
    ∃ netloc' server', takeUser netloc = some (server.params.lookup passwordKey, netloc') ∧
      readServer netloc' = some server' ∧
      server'.params = server.params.filter (·.1 ≠ passwordKey) ∧
      (server.params.lookup passwordKey = none → netloc' = netloc) ∧ ∀ c ∈ netloc', c ∈ netloc := by
  obtain ⟨⟨userinfo, hostport⟩, hsplit, h⟩ := Option.bind_eq_some_iff.mp h
  obtain ⟨user, huser, hserver⟩ := Option.bind_eq_some_iff.mp h
  obtain ⟨added, hadded, hall⟩ := PgConn.addHosts_params hserver
  obtain rfl : server = ⟨added ++ user.params⟩ := Option.some.inj (hserver.symm.trans (hall user))
  have htake : takeUser netloc =
      (if (Str.partition ':' userinfo).2.1 then (decode (Str.partition ':' userinfo).2.2).map
        fun password => (some password, (Str.partition ':' userinfo).1 ++ '@' :: hostport)
      else some (none, netloc)) := by
    unfold takeUser
    simp only [hsplit, Option.bind_eq_bind, Option.bind_some]
  dsimp only
  rw [List.lookup_append, lookup_of_forall_ne hadded, Option.none_or, List.filter_append,
    filter_of_ne hadded, htake]
  -- The user's part has a password when it has a colon.
  obtain ⟨hcolon, hcut⟩ | ⟨name, raw, rfl, hname, hcut⟩ := partition_cases ':' userinfo
  · have hplain := addUser_plain hcolon huser
    rw [hcut, lookup_of_forall_ne hplain, filter_of_ne hplain]
    refine ⟨netloc, ⟨added ++ user.params⟩, rfl, ?_, rfl, fun _ => rfl, fun _ hc => hc⟩
    unfold readServer
    simp only [hsplit, Option.bind_eq_bind, Option.bind_some, huser, hserver]
  · obtain ⟨password, named, hraw, hnamed, hparams⟩ := addUser_colon hname huser
    have hplain := addUser_plain hname hnamed
    obtain ⟨hnil, -, -⟩ | ⟨rfl, hat, hhost⟩ := splitNetloc_cases hsplit
    · simp at hnil
    -- The password is the user's, since the host adds none.
    have hlookup : user.params.lookup passwordKey = some password := by
      rw [hparams]
      exact List.lookup_cons_self
    have hfilter : user.params.filter (·.1 ≠ passwordKey) = named.params := by
      rw [hparams, List.filter_cons_of_neg (by simp), filter_of_ne hplain]
    rw [hcut, hlookup, hfilter]
    refine ⟨name ++ '@' :: hostport, ⟨added ++ named.params⟩, ?_, ?_, rfl, nofun, ?_⟩
    · simp [hraw]
    · unfold readServer
      rw [splitNetloc_join (fun hmem => hat (by simp [hmem])) hhost]
      simp only [Option.bind_eq_bind, Option.bind_some, hnamed, hall named]
    · intro c hc
      simp only [List.mem_append, List.mem_cons] at hc ⊢
      tauto

/-! ## The query -/

/-- The parameters that are kept are those of the other keywords, and the password that is found is
the last one. -/
theorem dropPassword_of_read (h : params.mapM readParam = some kvs) (password : Option Str) :
    ∃ kept, keptParams passwordKey params = some kept ∧
      dropPassword password params = some ((kvs.reverse.lookup passwordKey).or password, kept) := by
  -- Induction on the parameters, with the last password so far.
  induction params generalizing kvs password with
  | nil =>
    obtain rfl := Option.some.inj h
    exact ⟨[], rfl, rfl⟩
  | cons param params ih =>
    obtain ⟨kv, rest, hparam, hrest, rfl⟩ := mapM_cons_some h
    unfold readParam at hparam
    obtain ⟨⟨key, value⟩, hsplit, hparam⟩ := Option.bind_eq_some_iff.mp hparam
    obtain ⟨name, hname, hparam⟩ := Option.bind_eq_some_iff.mp hparam
    obtain ⟨text, htext, hparam⟩ := Option.bind_eq_some_iff.mp hparam
    have hcut := (splitParam_some hsplit).2
    unfold keptParams dropPassword
    simp only [hcut, hsplit, hname, Option.bind_eq_bind, Option.bind_some]
    -- A password is left out and remembered, anything else is kept.
    by_cases hkey : name = passwordKey
    · obtain ⟨kept, hkept, hdrop⟩ := ih hrest (some text)
      have hkv : kv = (passwordKey, text) := by
        have hssl : passwordKey ≠ "ssl".toList := by decide
        simp only [hkey, hssl, false_and, if_false, Option.ite_none_right_eq_some,
          Option.some.injEq] at hparam
        exact hparam.2.symm
      refine ⟨kept, by simp [hkept, hkey], ?_⟩
      simp only [if_pos hkey, htext, Option.bind_some, hdrop, List.reverse_cons, List.lookup_append,
        hkv, List.lookup_cons_self, Option.or_assoc, Option.some_or]
    · obtain ⟨kept, hkept, hdrop⟩ := ih hrest password
      have hkv : kv.1 ≠ passwordKey := by
        have hsslmode : "sslmode".toList ≠ passwordKey := by decide
        by_cases hssl : name = "ssl".toList ∧ text = "true".toList
        · simp only [if_pos hssl, Option.ite_none_right_eq_some, Option.some.injEq] at hparam
          rw [← hparam.2]
          exact hsslmode
        · simp only [if_neg hssl, Option.ite_none_right_eq_some, Option.some.injEq] at hparam
          rw [← hparam.2]
          exact hkey
      have hlookup : ([kv].lookup passwordKey) = none :=
        lookup_of_forall_ne (by simpa using hkv)
      refine ⟨param :: kept, by simp [hkept, hkey], ?_⟩
      simp only [if_neg hkey, hdrop, Option.bind_some, List.reverse_cons, List.lookup_append,
        hlookup, Option.or_none]

/-- A parameter that sets the password sets it. -/
theorem password_of_sets (h : params.mapM readParam = some kvs) (hmem : param ∈ params)
    (hsets : SetsPassword param) : kvs.reverse.lookup passwordKey ≠ none := by
  obtain ⟨kv, hkv, hread⟩ := mem_of_mapM h hmem
  obtain ⟨-, name, hname, hkey⟩ := of_readParam hread
  obtain rfl : name = passwordKey := Option.some.inj (hname.symm.trans hsets)
  have hssl : passwordKey ≠ "ssl".toList := by decide
  obtain hkey | ⟨hname, -⟩ := hkey
  · rw [Ne, List.lookup_eq_none_iff]
    intro hnone
    simpa [hkey] using hnone kv (List.mem_reverse.mpr hkv)
  · exact absurd hname hssl

/-! ## The URL of the command line -/

/-- The path goes over what the server gives. -/
theorem PgConn.addPath_params (h : server.addPath path = some base) :
    ∃ added : List (Str × Str), (∀ kv ∈ added, kv.1 ≠ passwordKey) ∧
      ∀ conn : PgConn, conn.addPath path = some ⟨added ++ conn.params⟩ := by
  have hdbname : "dbname".toList ≠ passwordKey := by decide
  unfold PgConn.addPath at h ⊢
  by_cases hpath : path = []
  · exact ⟨[], by simp, fun conn => by rw [if_pos hpath]; rfl⟩
  · simp only [if_neg hpath] at h ⊢
    obtain ⟨name, hname, -⟩ := Option.map_eq_some_iff.mp h
    exact ⟨[("dbname".toList, name)], by simpa using hdbname, fun conn => by rw [hname]; rfl⟩

/-- The password of the query goes over the password of the userinfo. -/
theorem lookup_password (hbase : server.addPath path = some base) :
    (kvs.reverse ++ base.params).lookup passwordKey =
      (kvs.reverse.lookup passwordKey).or (server.params.lookup passwordKey) := by
  obtain ⟨added, hadded, hall⟩ := PgConn.addPath_params hbase
  obtain rfl : base = ⟨added ++ server.params⟩ := Option.some.inj (hbase.symm.trans (hall server))
  rw [List.lookup_append, List.lookup_append, lookup_of_forall_ne hadded, Option.none_or]

/-- What becomes of a URL that is accepted: it stays when it sets no password, and is joined from
the parts without one otherwise. -/
theorem movePasswordToEnv_eq {scheme : Str} (hscheme : urlScheme url = some scheme)
    (hurl : splitUrl url = some (netloc, path, query)) (hserver : readServer netloc = some server)
    (hbase : server.addPath path = some base)
    (hkvs : (queryParams query).mapM readParam = some kvs) :
    ∃ netloc' server' kept, takeUser netloc = some (server.params.lookup passwordKey, netloc') ∧
      keptParams passwordKey (queryParams query) = some kept ∧
      readServer netloc' = some server' ∧
      server'.params = server.params.filter (·.1 ≠ passwordKey) ∧
      (∀ c ∈ netloc', c ∈ netloc) ∧
      movePasswordToEnv url = some (match (kvs.reverse ++ base.params).lookup passwordKey with
        | none => (url, [])
        | some password => (joinUrl scheme netloc' path kept, passwordEnv password)) := by
  obtain ⟨netloc', server', htake, hserver', hparams', -, hmem⟩ := takeUser_spec hserver
  obtain ⟨kept, hkept, hdrop⟩ := dropPassword_of_read hkvs (server.params.lookup passwordKey)
  refine ⟨netloc', server', kept, htake, hkept, hserver', hparams', hmem, ?_⟩
  unfold movePasswordToEnv
  simp only [hscheme, hurl, htake, hdrop, Option.bind_eq_bind, Option.bind_some,
    lookup_password hbase]
  split <;> rfl

/-- The URL for the command line is read as the URL less its password, and the password that libpq
reads in the URL is in `PGPASSWORD`. -/
theorem movePasswordToEnv_spec (h : PgConn.parse url = some conn) :
    ∃ argv, movePasswordToEnv url =
        some (argv, (conn.params.lookup passwordKey).elim [] passwordEnv) ∧
      PgConn.parse argv = some ⟨conn.params.filter (·.1 ≠ passwordKey)⟩ := by
  obtain ⟨netloc, path, query, server, base, kvs, hurl, hserver, hbase, hkvs, rfl, hname⟩ :=
    parse_iff.mp h
  obtain ⟨scheme, hscheme, hslash, hquestion, hpath⟩ := parts_plain hurl
  obtain ⟨netloc', server', kept, -, hkept, hserver', hparams', hmem, hmove⟩ :=
    movePasswordToEnv_eq hscheme hurl hserver hbase hkvs
  rw [hmove]
  -- Without a password the URL stays as it is.
  cases hpassword : (kvs.reverse ++ base.params).lookup passwordKey with
  | none =>
    refine ⟨url, rfl, ?_⟩
    have hfilter : (kvs.reverse ++ base.params).filter (·.1 ≠ passwordKey) =
        kvs.reverse ++ base.params := by
      apply filter_of_ne
      intro kv hkv hkey
      simpa [hkey] using List.lookup_eq_none_iff.mp hpassword kv hkv
    dsimp only
    rw [hfilter]
    exact h
  | some password =>
    refine ⟨_, rfl, ?_⟩
    have hssl : passwordKey ≠ "ssl".toList := by decide
    have hsslmode : passwordKey ≠ "sslmode".toList := by decide
    -- The kept parameters are read as the others were.
    obtain ⟨kept', hkept', hsub, hread⟩ := keptParams_of_read hssl hsslmode hkvs
    obtain rfl : kept' = kept := Option.some.inj (hkept'.symm.trans hkept)
    have hjoined : ∀ param ∈ kept', '&' ∉ param ∧ param ≠ [] := by
      intro param hparam
      obtain ⟨kv, -, hkv⟩ := mem_of_mapM hread hparam
      refine ⟨notMem_of_mem_queryParams (hsub.mem hparam), ?_⟩
      rintro rfl
      exact List.not_mem_nil (of_readParam hkv).1
    obtain ⟨-, hurl'⟩ := splitUrl_join hscheme
      ⟨fun hc => hslash (hmem _ hc), fun hc => hquestion (hmem _ hc)⟩ hpath kept'
    obtain ⟨added, hadded, hall⟩ := PgConn.addPath_params hbase
    obtain rfl : base = ⟨added ++ server.params⟩ := Option.some.inj (hbase.symm.trans (hall server))
    have hdbname : "dbname".toList ≠ passwordKey := by decide
    -- The path adds the name of the database, which is no password.
    have hfilter : (kvs.reverse ++ (added ++ server.params)).filter (·.1 ≠ passwordKey) =
        (kvs.filter (·.1 ≠ passwordKey)).reverse ++ (added ++ server'.params) := by
      rw [List.filter_append, List.filter_append, filter_of_ne hadded, List.filter_reverse,
        hparams']
    refine parse_iff.mpr ⟨netloc', path, joinParams kept', server', ⟨added ++ server'.params⟩,
      kvs.filter (·.1 ≠ passwordKey), hurl', hserver', hall server', ?_, ?_, ?_⟩
    · rw [queryParams_join hjoined]
      exact hread
    · rw [hfilter]
    · unfold PgConn.get at hname ⊢
      rw [lookup_filter_ne hdbname]
      exact hname

/-! ## Two URLs -/

/-- The password is taken out of the user's part. -/
theorem takeUser_password {user raw taken : Str} (huser : ':' ∉ user)
    (h : takeUser (user ++ ':' :: raw ++ '@' :: hostport) = some (password, taken)) :
    taken = user ++ '@' :: hostport ∧ password ≠ none := by
  obtain ⟨⟨userinfo, hosts⟩, hsplit, h⟩ := Option.bind_eq_some_iff.mp h
  -- An `@` in what comes before the host would have ended the user's part earlier.
  have hat : '@' ∉ user ++ ':' :: raw := by
    intro hat
    obtain ⟨a, b, hab, ha⟩ := List.eq_append_cons_of_mem hat
    unfold splitNetloc at hsplit
    rw [hab, List.append_assoc, List.cons_append, partition_append_cons ha] at hsplit
    simp at hsplit
  have hcut : splitNetloc (user ++ ':' :: raw ++ '@' :: hostport) =
      if '@' ∈ hostport then none else some (user ++ ':' :: raw, hostport) := by
    unfold splitNetloc
    rw [partition_append_cons hat]
  rw [hcut, Option.ite_none_left_eq_some] at hsplit
  obtain ⟨rfl, rfl⟩ := Prod.mk.inj (Option.some.inj hsplit.2)
  -- The user has no colon, so the first one begins the password.
  simp only [partition_append_cons huser, if_true] at h
  obtain ⟨text, -, hpair⟩ := Option.map_eq_some_iff.mp h
  obtain ⟨rfl, rfl⟩ := Prod.mk.inj hpair
  exact ⟨rfl, Option.some_ne_none text⟩

/-- Parameters that differ in passwords at most keep the same, and where they differ there is a
password on both sides. -/
theorem paramApart_spec (h : List.Forall₂ ParamApart params params') :
    (∀ kept kept', keptParams passwordKey params = some kept →
      keptParams passwordKey params' = some kept' → kept = kept') ∧
    (params = params' ∨
      (∃ param ∈ params, SetsPassword param) ∧ ∃ param ∈ params', SetsPassword param) := by
  -- Induction on the pairs of parameters.
  induction h with
  | nil => exact ⟨fun kept kept' hk hk' => Option.some.inj (hk.symm.trans hk'), .inl rfl⟩
  | @cons param param' params params' hparam _ ih =>
    obtain ⟨hsame, hsets⟩ := ih
    constructor
    · intro kept kept' hk hk'
      obtain ⟨name, hname, hk⟩ := Option.bind_eq_some_iff.mp hk
      obtain ⟨rest, hrest, hk⟩ := Option.bind_eq_some_iff.mp hk
      obtain ⟨name', hname', hk'⟩ := Option.bind_eq_some_iff.mp hk'
      obtain ⟨rest', hrest', hk'⟩ := Option.bind_eq_some_iff.mp hk'
      obtain rfl := hsame rest rest' hrest hrest'
      obtain rfl | ⟨hp, hp'⟩ := hparam
      · obtain rfl : name = name' := Option.some.inj (hname.symm.trans hname')
        exact Option.some.inj (hk.symm.trans hk')
      · obtain rfl : name = passwordKey := Option.some.inj (hname.symm.trans hp)
        obtain rfl : name' = passwordKey := Option.some.inj (hname'.symm.trans hp')
        simp only [if_true] at hk hk'
        exact Option.some.inj (hk.symm.trans hk')
    · obtain rfl | ⟨hp, hp'⟩ := hparam
      · obtain rfl | ⟨⟨p, hmem, hp⟩, p', hmem', hp'⟩ := hsets
        · exact .inl rfl
        · exact .inr ⟨⟨p, List.mem_cons_of_mem _ hmem, hp⟩, p', List.mem_cons_of_mem _ hmem', hp'⟩
      · exact .inr ⟨⟨param, List.mem_cons_self, hp⟩, param', List.mem_cons_self, hp'⟩

/-- Two URLs that differ in passwords at most are given to a child as one. -/
theorem movePasswordToEnv_apart (h : PgConn.parse url = some conn)
    (h' : PgConn.parse url' = some conn') (hapart : PasswordApart url url') :
    (movePasswordToEnv url).map Prod.fst = (movePasswordToEnv url').map Prod.fst := by
  obtain rfl | ⟨netloc, netloc', path, query, query', hschemes, hurl, hurl', hnetloc, hparams,
    hdiffer⟩ := hapart
  · rfl
  obtain ⟨n, p, q, server, base, kvs, hcut, hserver, hbase, hkvs, -, -⟩ := parse_iff.mp h
  obtain ⟨n', p', q', server', base', kvs', hcut', hserver', hbase', hkvs', -, -⟩ :=
    parse_iff.mp h'
  obtain ⟨rfl, rfl, rfl⟩ : netloc = n ∧ path = p ∧ query = q := by simpa [hcut] using hurl.symm
  obtain ⟨rfl, rfl, rfl⟩ : netloc' = n' ∧ path = p' ∧ query' = q' := by
    simpa [hcut'] using hurl'.symm
  obtain ⟨scheme, hscheme, -⟩ := parts_plain hurl
  obtain ⟨taken, -, kept, htake, hkept, -, -, -, hmove⟩ :=
    movePasswordToEnv_eq hscheme hurl hserver hbase hkvs
  obtain ⟨taken', -, kept', htake', hkept', -, -, -, hmove'⟩ :=
    movePasswordToEnv_eq (hschemes ▸ hscheme) hurl' hserver' hbase' hkvs'
  obtain ⟨hsame, hsets⟩ := paramApart_spec hparams
  obtain rfl := hsame kept kept' hkept hkept'
  -- the netlocs without a password are the same, and had one if they were not
  have htaken : taken = taken' ∧ (netloc ≠ netloc' →
      server.params.lookup passwordKey ≠ none ∧ server'.params.lookup passwordKey ≠ none) := by
    obtain rfl | ⟨user, raw, raw', hostport, huser, rfl, rfl⟩ := hnetloc
    · rw [htake] at htake'
      exact ⟨(Prod.mk.inj (Option.some.inj htake')).2, fun hne => absurd rfl hne⟩
    · obtain ⟨rfl, hp⟩ := takeUser_password huser htake
      obtain ⟨rfl, hp'⟩ := takeUser_password huser htake'
      exact ⟨rfl, fun _ => ⟨hp, hp'⟩⟩
  obtain ⟨rfl, hserverPassword⟩ := htaken
  have hpasswords : (kvs.reverse ++ base.params).lookup passwordKey ≠ none ∧
      (kvs'.reverse ++ base'.params).lookup passwordKey ≠ none := by
    rw [lookup_password hbase, lookup_password hbase', Ne, Ne, Option.or_eq_none_iff,
      Option.or_eq_none_iff]
    obtain hne | hne := hdiffer
    · obtain ⟨hp, hp'⟩ := hserverPassword hne
      exact ⟨fun hnone => hp hnone.2, fun hnone => hp' hnone.2⟩
    · obtain hsame | ⟨⟨param, hmem, hset⟩, param', hmem', hset'⟩ := hsets
      · exact absurd hsame hne
      · exact ⟨fun hnone => password_of_sets hkvs hmem hset hnone.1,
          fun hnone => password_of_sets hkvs' hmem' hset' hnone.1⟩
  obtain ⟨password, hpassword⟩ := Option.ne_none_iff_exists'.mp hpasswords.1
  obtain ⟨password', hpassword'⟩ := Option.ne_none_iff_exists'.mp hpasswords.2
  rw [hmove, hmove', hpassword, hpassword']
  rfl

/-- No password reaches a command line: the URL for it is read as the URL less its password, which
goes into the environment, and it is the same for any two URLs that differ in passwords at most. -/
theorem no_password_on_argv (h : PgConn.parse url = some conn) :
    ∃ argv, movePasswordToEnv url =
        some (argv, (conn.params.lookup passwordKey).elim [] passwordEnv) ∧
      PgConn.parse argv = some ⟨conn.params.filter (·.1 ≠ passwordKey)⟩ ∧
      (∀ key, (conn.params.filter (·.1 ≠ passwordKey)).lookup key =
        if key = passwordKey then none else conn.params.lookup key) ∧
      ∀ url' conn', PgConn.parse url' = some conn' → PasswordApart url url' →
        (movePasswordToEnv url').map Prod.fst = some argv := by
  obtain ⟨argv, hmove, hparse⟩ := movePasswordToEnv_spec h
  refine ⟨argv, hmove, hparse, ?_, ?_⟩
  -- Only the password's own setting is gone.
  · intro key
    split
    · next hkey => rw [hkey, lookup_filter_self]
    · next hkey => rw [lookup_filter_ne hkey]
  -- A URL that differs in the password only is moved to the same one.
  · intro url' conn' h' hapart
    rw [← movePasswordToEnv_apart h h' hapart, hmove]
    rfl

/-- Three passwords, of which the last one counts. -/
def passwordUrl : Str := "postgresql://u:one@h/a?password=two&pass%77ord=three".toList

/-- The sample URL's password goes into the environment. -/
theorem no_password_on_argv_three : ∃ conn argv, PgConn.parse passwordUrl = some conn ∧
    movePasswordToEnv passwordUrl = some (argv, [("PGPASSWORD".toList, "three".toList)]) ∧
    PgConn.parse argv = some ⟨conn.params.filter (·.1 ≠ passwordKey)⟩ := by
  obtain ⟨conn, hconn⟩ := Option.isSome_iff_exists.mp
    (show (PgConn.parse passwordUrl).isSome = true by decide)
  obtain ⟨argv, hmove, hparse, -⟩ := no_password_on_argv hconn
  have hpassword : conn.params.lookup passwordKey = some "three".toList := by
    have hlookup : (PgConn.parse passwordUrl).bind (·.params.lookup passwordKey) =
        some "three".toList := by decide
    simpa [hconn] using hlookup
  rw [hpassword] at hmove
  exact ⟨conn, argv, hconn, hmove, hparse⟩

end Fraisier.Config
