import Mathlib.Data.List.Forall2
import Fraisier.Lib.Fallible
import Fraisier.Lib.Lookup
import Fraisier.Lib.Partition
import Fraisier.Config.PgConn
import Fraisier.Backup.Names

/-!
# Editing a PostgreSQL URL

`dbops/_url.py` cuts a URL where `PgConn` does and puts it together again with another database.
`replaceDbName_spec` says what the new URL is read as. A URL that is accepted is first taken apart
(`parse_iff`): the server, the path, and one keyword for each parameter of the query, of which the
last one counts.
-/

namespace Fraisier.Config

open Fraisier.Lib Str Fallible
open Fraisier.Backup (isIdent isIdentChar chomp chomp_cases)

/-! ## The functions -/

/-- The scheme that `split_url` finds. -/
def urlScheme (url : Str) : Option Str :=
  ["postgresql://".toList, "postgres://".toList].find? url.startsWith

/-- The parameters whose key does not read as `key`: `none` when `decode` raises. -/
def keptParams (key : Str) : List Str → Option (List Str)
  | [] => some []
  | param :: rest => do
    let name ← decode (Str.partition '=' param).1
    let kept ← keptParams key rest
    some (if name = key then kept else param :: kept)

/-- The query that `_join` writes. -/
def joinParams (params : List Str) : Str := List.intercalate ['&'] params

/-- `_join`. -/
def joinUrl (scheme netloc path : Str) (params : List Str) : Str :=
  let joined := scheme ++ netloc ++ '/' :: path
  if params = [] then joined else joined ++ '?' :: joinParams params

/-- `replace_db_name`: `none` when it raises `ValueError`. -/
def replaceDbName (url dbName : Str) : Option Str :=
  match urlScheme url, splitUrl url with
  | some scheme, some (netloc, _, query) =>
    (keptParams "dbname".toList (queryParams query)).map (joinUrl scheme netloc dbName)
  | _, _ => some url

example : replaceDbName "postgresql:///a?host=/run&dbname=b&".toList "c".toList =
    some "postgresql:///c?host=/run".toList := by decide

/-! ## What a URL is read as -/

/-- What one parameter of the query sets. -/
def readParam (param : Str) : Option (Str × Str) := do
  let (rawKey, rawValue) ← splitParam param
  let key ← decode rawKey
  let value ← decode rawValue
  let (key, value) := if key = "ssl".toList ∧ value = "true".toList then
    ("sslmode".toList, "require".toList) else (key, value)
  if checkKeyword key then some (key, value) else none

/-- What the part before the path gives. -/
def readServer (netloc : Str) : Option PgConn := do
  let (userinfo, hostport) ← splitNetloc netloc
  let conn ← PgConn.addUser ⟨[]⟩ userinfo
  conn.addHosts hostport

/-- What the path adds. -/
def PgConn.addPath (conn : PgConn) (path : Str) : Option PgConn :=
  if path = [] then some conn else (decode path).map (conn.set "dbname".toList)

variable {url scheme netloc path query param key db : Str} {params : List Str} {conn server : PgConn}
  {kvs : List (Str × Str)}

/-- A parameter that is read is set. -/
theorem addParam_eq (conn : PgConn) (param : Str) :
    conn.addParam param = (readParam param).map fun kv => conn.set kv.1 kv.2 := by
  unfold PgConn.addParam readParam
  cases splitParam param with
  | none => rfl
  | some raw =>
    obtain ⟨rawKey, rawValue⟩ := raw
    simp only [Option.bind_eq_bind, Option.bind_some]
    cases decode rawKey with
    | none => rfl
    | some key => cases decode rawValue with
      | none => rfl
      | some value =>
        simp only [Option.bind_some]
        split <;> split <;> rfl

/-- Parameters that are read are set in order, the last one first. -/
theorem foldlM_addParam (params : List Str) (conn : PgConn) :
    params.foldlM PgConn.addParam conn =
      (params.mapM readParam).map fun kvs => ⟨kvs.reverse ++ conn.params⟩ := by
  induction params generalizing conn with
  | nil => rfl
  | cons param params ih =>
    rw [List.foldlM_cons, List.mapM_cons, addParam_eq]
    cases readParam param with
    | none => rfl
    | some kv =>
      cases hparams : params.mapM readParam <;> simp [ih, hparams, PgConn.set]

/-- `PgConn.parse` in its parts. -/
theorem parse_eq (url : Str) : PgConn.parse url = (splitUrl url).bind fun parts =>
    (readServer parts.1).bind fun server => (server.addPath parts.2.1).bind fun base =>
      ((queryParams parts.2.2).foldlM PgConn.addParam base).bind fun conn =>
        if (conn.get "dbname").getD [] = [] then none else some conn := by
  unfold PgConn.parse
  -- The parts are read one after the other, and the first that cannot be read gives nothing.
  cases splitUrl url with
  | none => rfl
  | some parts =>
    obtain ⟨netloc, path, query⟩ := parts
    simp only [Option.bind_eq_bind, Option.bind_some, readServer]
    cases splitNetloc netloc with
    | none => rfl
    | some pair =>
      simp only [Option.bind_some]
      cases PgConn.addUser ⟨[]⟩ pair.1 with
      | none => rfl
      | some user =>
        simp only [Option.bind_some]
        cases user.addHosts pair.2 with
        | none => rfl
        | some server =>
          unfold PgConn.addPath
          by_cases hpath : path = []
          · simp only [if_pos hpath, Option.bind_some]
          · simp only [if_neg hpath, Option.bind_some]

/-- A URL that is accepted: the server, the path, and what the parameters set. -/
theorem parse_iff : PgConn.parse url = some conn ↔ ∃ netloc path query server base kvs,
    splitUrl url = some (netloc, path, query) ∧ readServer netloc = some server ∧
      server.addPath path = some base ∧ (queryParams query).mapM readParam = some kvs ∧
      conn = ⟨kvs.reverse ++ base.params⟩ ∧ (conn.get "dbname").getD [] ≠ [] := by
  rw [parse_eq]
  simp only [Option.bind_eq_some_iff, foldlM_addParam, Option.map_eq_some_iff]
  constructor
  · rintro ⟨⟨netloc, path, query⟩, hurl, server, hserver, base, hbase, conn', ⟨kvs, hkvs, rfl⟩,
      hlast⟩
    refine ⟨netloc, path, query, server, base, kvs, hurl, hserver, hbase, hkvs, ?_⟩
    split at hlast
    · cases hlast
    · next hname =>
      obtain rfl := Option.some.inj hlast
      exact ⟨rfl, hname⟩
  · rintro ⟨netloc, path, query, server, base, kvs, hurl, hserver, hbase, hkvs, rfl, hname⟩
    exact ⟨(netloc, path, query), hurl, server, hserver, base, hbase, _, ⟨kvs, hkvs, rfl⟩,
      if_neg hname⟩

/-! ## The part before the query -/

/-- The keywords that the part before the query sets. -/
def serverKeywords : List Str := ["user", "password", "host", "port", "dbname"].map String.toList

/-- A property that setting one of them keeps. -/
def SetKeeps (P : PgConn → Prop) : Prop :=
  ∀ (conn : PgConn) (key value : Str), key ∈ serverKeywords → P conn → P (conn.set key value)

section Server

variable {P : PgConn → Prop} {conn' : PgConn}

/-- What every setting keeps, adding the user keeps. -/
theorem SetKeeps.addUser {userinfo : Str} (hkept : SetKeeps P) (h : P conn)
    (huser : conn.addUser userinfo = some conn') : P conn' := by
  -- The password is set last, if there is one.
  have hpassword : ∀ {named : PgConn} {colon : Bool} {password : Str}, P named →
      (if colon then (decode password).map (named.set "password".toList) else some named) =
        some conn' → P conn' := by
    intro named colon password hnamed hlast
    split at hlast
    · obtain ⟨value, -, rfl⟩ := Option.map_eq_some_iff.mp hlast
      exact hkept _ _ _ (by decide) hnamed
    · rw [← Option.some.inj hlast]
      exact hnamed
  unfold PgConn.addUser at huser
  dsimp only at huser
  split at huser
  · rw [← Option.some.inj huser]
    exact h
  split at huser
  · exact hpassword h huser
  · obtain ⟨named, hnamed, hlast⟩ := Option.bind_eq_some_iff.mp huser
    obtain ⟨value, -, rfl⟩ := Option.map_eq_some_iff.mp hnamed
    exact hpassword (hkept _ _ _ (by decide) h) hlast

/-- What every setting keeps, adding the hosts keeps. -/
theorem SetKeeps.addHosts {hostport : Str} (hkept : SetKeeps P) (h : P conn)
    (hserver : conn.addHosts hostport = some conn') : P conn' := by
  unfold PgConn.addHosts at hserver
  split at hserver
  · rw [← Option.some.inj hserver]
    exact h
  · obtain ⟨pairs, -, hserver⟩ := Option.bind_eq_some_iff.mp hserver
    obtain rfl := Option.some.inj hserver
    split <;> split
    · exact hkept _ _ _ (by decide) (hkept _ _ _ (by decide) h)
    · exact hkept _ _ _ (by decide) h
    · exact hkept _ _ _ (by decide) h
    · exact h

/-- What holds of no keywords holds of those before the query. -/
theorem SetKeeps.base {base : PgConn} (hkept : SetKeeps P) (hempty : P ⟨[]⟩)
    (hserver : readServer netloc = some server) (hbase : server.addPath path = some base) :
    P base := by
  unfold readServer at hserver
  obtain ⟨⟨userinfo, hostport⟩, -, hserver⟩ := Option.bind_eq_some_iff.mp hserver
  obtain ⟨user, huser, hserver⟩ := Option.bind_eq_some_iff.mp hserver
  have hplain := hkept.addHosts (hkept.addUser hempty huser) hserver
  unfold PgConn.addPath at hbase
  split at hbase
  · rw [← Option.some.inj hbase]
    exact hplain
  · obtain ⟨name, -, rfl⟩ := Option.map_eq_some_iff.mp hbase
    exact hkept _ _ _ (by decide) hplain

end Server

/-! ## Parameters of the query -/

/-- A parameter that splits holds an equals sign. -/
theorem splitParam_some {raw : Str × Str} (h : splitParam param = some raw) :
    '=' ∈ param ∧ Str.partition '=' param = (raw.1, true, raw.2) := by
  unfold splitParam at h
  obtain ⟨-, hcut⟩ | ⟨rawKey, rawValue, hparam, -, hcut⟩ := partition_cases '=' param
  · rw [hcut] at h
    cases h
  · rw [hcut] at h ⊢
    obtain rfl := Option.some.inj h
    exact ⟨by simp [hparam], rfl⟩

/-- A parameter that is read has a key, and the keyword that it sets is that, but for `ssl`. -/
theorem of_readParam {kv : Str × Str} (h : readParam param = some kv) :
    '=' ∈ param ∧ ∃ name, decode (Str.partition '=' param).1 = some name ∧
      (kv.1 = name ∨ name = "ssl".toList ∧ kv.1 = "sslmode".toList) := by
  unfold readParam at h
  obtain ⟨⟨rawKey, rawValue⟩, hsplit, h⟩ := Option.bind_eq_some_iff.mp h
  obtain ⟨hmem, hcut⟩ := splitParam_some hsplit
  obtain ⟨name, hname, h⟩ := Option.bind_eq_some_iff.mp h
  obtain ⟨value, -, h⟩ := Option.bind_eq_some_iff.mp h
  refine ⟨hmem, name, by rw [hcut, hname], ?_⟩
  -- `ssl=true` is the only key that sets another keyword.
  by_cases hssl : name = "ssl".toList ∧ value = "true".toList
  · simp only [if_pos hssl] at h
    split at h
    · obtain rfl := Option.some.inj h
      exact .inr ⟨hssl.1, rfl⟩
    · cases h
  · simp only [if_neg hssl] at h
    split at h
    · obtain rfl := Option.some.inj h
      exact .inl rfl
    · cases h

/-- What is set is a keyword that is known. -/
theorem keyword_of_readParam {kv : Str × Str} (h : readParam param = some kv) : kv.1 ∈ keywords := by
  unfold readParam at h
  obtain ⟨raw, -, h⟩ := Option.bind_eq_some_iff.mp h
  obtain ⟨name, -, h⟩ := Option.bind_eq_some_iff.mp h
  obtain ⟨value, -, h⟩ := Option.bind_eq_some_iff.mp h
  have hset : ∀ {key value : Str}, (if checkKeyword key then some (key, value) else none) = some kv →
      kv.1 ∈ keywords := by
    intro key value hset
    split at hset
    · next hcheck =>
      obtain rfl := Option.some.inj hset
      exact of_decide_eq_true hcheck
    · nomatch hset
  exact hset h

/-- The parameters of a keyword are dropped, and with them what they set. -/
theorem keptParams_of_read (hssl : key ≠ "ssl".toList) (hsslmode : key ≠ "sslmode".toList)
    (h : params.mapM readParam = some kvs) : ∃ kept, keptParams key params = some kept ∧
      kept.Sublist params ∧ kept.mapM readParam = some (kvs.filter (·.1 ≠ key)) := by
  -- Induction on the parameters, each of which is read on its own.
  induction params generalizing kvs with
  | nil =>
    obtain rfl := Option.some.inj h
    exact ⟨[], rfl, List.Sublist.refl _, rfl⟩
  | cons param params ih =>
    obtain ⟨kv, rest, hparam, hrest, rfl⟩ := mapM_cons_some h
    obtain ⟨kept, hkept, hsub, hread⟩ := ih hrest
    obtain ⟨-, name, hname, hkey⟩ := of_readParam hparam
    have hsame : name = key ↔ kv.1 = key := by
      obtain hkey | ⟨hname, hkey⟩ := hkey
      · rw [hkey]
      · rw [hkey, hname]
        exact ⟨fun h => absurd h.symm hssl, fun h => absurd h.symm hsslmode⟩
    rw [keptParams, hname, hkept]
    -- The parameter goes exactly when the keyword that it sets goes.
    by_cases hdrop : name = key
    · refine ⟨kept, by simp [hdrop], hsub.cons _, ?_⟩
      rw [List.filter_cons_of_neg (by simpa using hsame.mp hdrop)]
      exact hread
    · refine ⟨param :: kept, by simp [hdrop], hsub.cons_cons _, ?_⟩
      rw [List.filter_cons_of_pos (by simpa using mt hsame.mpr hdrop), List.mapM_cons, hparam, hread]
      rfl

/-- `dbname` is not `ssl`. -/
theorem dbname_ne_ssl : "dbname".toList ≠ "ssl".toList := by decide

/-- `dbname` is not `sslmode`. -/
theorem dbname_ne_sslmode : "dbname".toList ≠ "sslmode".toList := by decide

/-- A parameter of a query holds no ampersand. -/
theorem notMem_of_mem_queryParams (h : param ∈ queryParams query) : '&' ∉ param := by
  unfold queryParams at h
  by_cases hquery : query = []
  · simp [hquery] at h
  · simp only [if_neg hquery] at h
    split at h
    · exact notMem_of_mem_splitOn (List.mem_of_mem_dropLast h)
    · exact notMem_of_mem_splitOn h

/-- Parameters that are joined are the parameters of the query. -/
theorem queryParams_join (h : ∀ param ∈ params, '&' ∉ param ∧ param ≠ []) :
    queryParams (joinParams params) = params := by
  by_cases hne : params = []
  · rw [hne]
    rfl
  -- No parameter holds the separator.
  have hsplit : (joinParams params).splitOn '&' = params :=
    List.splitOn_intercalate '&' (fun param hparam => (h param hparam).1) hne
  have hjoined : joinParams params ≠ [] := by
    intro hnil
    rw [hnil] at hsplit
    obtain rfl : params = [[]] := by simpa using hsplit.symm
    exact (h [] (by simp)).2 rfl
  unfold queryParams
  rw [if_neg hjoined, hsplit]
  dsimp only
  rw [if_neg]
  rintro ⟨-, hlast⟩
  exact (h [] (List.mem_of_getLast? hlast)).2 rfl

/-! ## A URL that is put together -/

/-- A scheme has none of the characters that a URL is cut at, but for its own slashes. -/
theorem scheme_cases (h : urlScheme url = some scheme) :
    (scheme = "postgresql://".toList ∨ scheme = "postgres://".toList) ∧
      ∃ rest, url = scheme ++ rest := by
  refine ⟨by simpa using List.mem_of_find?_eq_some h, ?_⟩
  have hstarts := List.find?_some h
  obtain ⟨rest, hrest⟩ := List.isPrefixOf_iff_prefix.mp hstarts
  exact ⟨rest, hrest.symm⟩

/-- The scheme of a URL depends on its beginning alone. -/
theorem urlScheme_append (h : urlScheme url = some scheme) (rest : Str) :
    urlScheme (scheme ++ rest) = some scheme := by
  obtain ⟨rfl | rfl, -⟩ := scheme_cases h <;> rfl

/-- A URL is split after its scheme. -/
theorem splitUrl_eq (h : urlScheme url = some scheme) (rest : Str) :
    splitUrl (scheme ++ rest) =
      some ((Str.partition '/' (Str.partition '?' rest).1).1,
        (Str.partition '/' (Str.partition '?' rest).1).2.2, (Str.partition '?' rest).2.2) := by
  have hfind : ["postgresql://".toList, "postgres://".toList].find? (scheme ++ rest).startsWith =
      some scheme := urlScheme_append h rest
  unfold splitUrl
  simp only [hfind, Option.map_some, List.drop_left]

/-- The parts of a URL have none of the characters that they are cut at. -/
theorem parts_plain (h : splitUrl url = some (netloc, path, query)) :
    ∃ scheme, urlScheme url = some scheme ∧ '/' ∉ netloc ∧ '?' ∉ netloc ∧ '?' ∉ path := by
  unfold splitUrl at h
  obtain ⟨scheme, hscheme, hparts⟩ := Option.map_eq_some_iff.mp h
  refine ⟨scheme, hscheme, ?_⟩
  rcases hquery : Str.partition '?' (url.drop scheme.length) with ⟨rest, q, query'⟩
  rcases hpath : Str.partition '/' rest with ⟨netloc', p, path'⟩
  simp only [hquery, hpath, Prod.mk.injEq] at hparts
  obtain ⟨rfl, rfl, -⟩ := hparts
  have hrest := notMem_of_partition hquery
  have hmem := mem_of_partition (d := '?') hpath
  exact ⟨notMem_of_partition hpath, fun hn => hrest (hmem.1 hn), fun hn => hrest (hmem.2 hn)⟩

/-- A URL that is put together is taken apart again. -/
theorem splitUrl_join (h : urlScheme url = some scheme) (hnetloc : '/' ∉ netloc ∧ '?' ∉ netloc)
    (hpath : '?' ∉ path) (params : List Str) :
    urlScheme (joinUrl scheme netloc path params) = some scheme ∧
      splitUrl (joinUrl scheme netloc path params) = some (netloc, path, joinParams params) := by
  have hjoined : '?' ∉ netloc ++ '/' :: path := by simp [hnetloc.2, hpath]
  unfold joinUrl
  -- Without parameters there is no question mark.
  by_cases hparams : params = []
  · subst hparams
    simp only [if_true, List.append_assoc]
    refine ⟨urlScheme_append h _, ?_⟩
    rw [splitUrl_eq h, partition_of_notMem hjoined, partition_append_cons hnetloc.1]
    rfl
  · simp only [if_neg hparams, List.append_assoc]
    refine ⟨urlScheme_append h _, ?_⟩
    rw [splitUrl_eq h, ← List.append_assoc, partition_append_cons hjoined,
      partition_append_cons hnetloc.1]

/-! ## Keywords -/

/-- The keywords that are set, less one. -/
theorem PgConn.addPath_filter (h : server.addPath path = some conn) :
    conn.params.filter (·.1 ≠ "dbname".toList) = server.params.filter (·.1 ≠ "dbname".toList) := by
  unfold PgConn.addPath at h
  split at h
  · rw [← Option.some.inj h]
  · obtain ⟨name, -, rfl⟩ := Option.map_eq_some_iff.mp h
    exact List.filter_cons_of_neg (by simp)

/-! ## Another database -/

/-- An identifier is read as itself, and is cut nowhere. -/
theorem identifier_plain (h : isIdent (chomp db) = true) :
    db ≠ [] ∧ decode db = some db ∧ '?' ∉ db := by
  obtain ⟨stop, hdb, hstop⟩ := chomp_cases (rfl : chomp db = _)
  -- An identifier has letters, digits and underscores, and a newline at most at its end.
  have hchars : ∀ c ∈ db, isIdentChar c = true ∨ c = '\n' := by
    intro c hc
    rw [hdb, List.mem_append] at hc
    obtain hc | hc := hc
    · left
      cases hcore : chomp db with
      | nil =>
        rw [hcore] at hc
        cases hc
      | cons first rest =>
        rw [hcore] at h hc
        simp only [isIdent, Bool.and_eq_true, Bool.or_eq_true, decide_eq_true_eq,
          List.all_eq_true] at h
        obtain rfl | hc := List.mem_cons.mp hc
        · obtain halpha | rfl := h.1.1
          · simp [isIdentChar, Char.isAlphanum, halpha]
          · decide
        · exact h.1.2 c hc
    · obtain rfl | rfl := hstop
      · cases hc
      · exact .inr (List.mem_singleton.mp hc)
  -- What is neither is not in it.
  have hnot : ∀ c, isIdentChar c = false → c ≠ '\n' → c ∉ db := by
    intro c hident hnewline hc
    obtain hyes | hyes := hchars c hc
    · rw [hident] at hyes
      cases hyes
    · exact hnewline hyes
  refine ⟨?_, ?_, hnot '?' (by decide) (by decide)⟩
  · rintro rfl
    simp [chomp, isIdent, endsWith] at h
  · unfold decode
    rw [if_neg (hnot '%' (by decide) (by decide))]

/-- The new URL is read as the old one with the database of that name, and is not changed again. -/
theorem replaceDbName_spec (h : PgConn.parse url = some conn) (hdb : isIdent (chomp db) = true) :
    ∃ url' conn', replaceDbName url db = some url' ∧ PgConn.parse url' = some conn' ∧
      (∀ key, conn'.params.lookup key =
        if key = "dbname".toList then some db else conn.params.lookup key) ∧
      replaceDbName url' db = some url' := by
  obtain ⟨netloc, path, query, server, base, kvs, hurl, hserver, hbase, hkvs, rfl, -⟩ :=
    parse_iff.mp h
  obtain ⟨scheme, hscheme, hslash, hnetloc, -⟩ := parts_plain hurl
  obtain ⟨hne, hdecode, hquestion⟩ := identifier_plain hdb
  -- Without its database, the query is read as the other parameters.
  obtain ⟨kept, hkept, hsub, hread⟩ :=
    keptParams_of_read dbname_ne_ssl dbname_ne_sslmode hkvs
  have hparams : ∀ param ∈ kept, '&' ∉ param ∧ param ≠ [] := by
    intro param hparam
    obtain ⟨kv, -, hkv⟩ := mem_of_mapM hread hparam
    refine ⟨notMem_of_mem_queryParams (hsub.mem hparam), ?_⟩
    rintro rfl
    exact List.not_mem_nil (of_readParam hkv).1
  obtain ⟨hscheme', hurl'⟩ := splitUrl_join hscheme ⟨hslash, hnetloc⟩ hquestion kept
  have hquery : queryParams (joinParams kept) = kept := queryParams_join hparams
  -- The new URL has the name for its path.
  have hnew : replaceDbName url db = some (joinUrl scheme netloc db kept) := by
    unfold replaceDbName
    simp only [hscheme, hurl, hkept, Option.map_some]
  -- A second replacement finds nothing to leave out.
  have hagain : replaceDbName (joinUrl scheme netloc db kept) db =
      some (joinUrl scheme netloc db kept) := by
    obtain ⟨kept', hkept', hsub', hread'⟩ :=
      keptParams_of_read dbname_ne_ssl dbname_ne_sslmode hread
    have hall : (kvs.filter (·.1 ≠ "dbname".toList)).filter (·.1 ≠ "dbname".toList) =
        kvs.filter (·.1 ≠ "dbname".toList) := by
      rw [List.filter_filter]
      simp only [Bool.and_self]
    rw [hall] at hread'
    obtain rfl : kept' = kept := hsub'.eq_of_length
      ((length_of_mapM hread').symm.trans (length_of_mapM hread))
    unfold replaceDbName
    simp only [hscheme', hurl', hquery, hkept', Option.map_some]
  -- The name comes first where the parameters are looked up.
  have hlookup : ∀ key, ((kvs.filter (·.1 ≠ "dbname".toList)).reverse ++
      ("dbname".toList, db) :: server.params).lookup key =
        if key = "dbname".toList then some db else (kvs.reverse ++ base.params).lookup key := by
    intro key
    split
    · next hkey =>
      rw [hkey, List.lookup_append, ← List.filter_reverse, lookup_filter_self]
      simp
    · next hkey =>
      rw [← lookup_filter_ne hkey, ← lookup_filter_ne hkey (kvs.reverse ++ _),
        List.filter_append, List.filter_append, PgConn.addPath_filter hbase]
      simp [List.filter_reverse, List.filter_filter]
  refine ⟨_, ⟨(kvs.filter (·.1 ≠ "dbname".toList)).reverse ++
    ("dbname".toList, db) :: server.params⟩, hnew, ?_, hlookup, hagain⟩
  refine parse_iff.mpr ⟨netloc, db, joinParams kept, server, server.set "dbname".toList db, _, hurl',
    hserver, ?_, by rw [hquery]; exact hread, rfl, ?_⟩
  · unfold PgConn.addPath
    rw [if_neg hne, hdecode]
    rfl
  · unfold PgConn.get
    rw [hlookup]
    simpa using hne

/-- A socket URL that names its database twice. -/
def socketUrl : Str := "postgresql:///a?host=/run&dbname=b".toList

/-- The database of the sample socket's URL is replaced and nothing else. -/
theorem replaceDbName_spec_socket : ∃ conn url' conn', PgConn.parse socketUrl = some conn ∧
    replaceDbName socketUrl "c".toList = some url' ∧ PgConn.parse url' = some conn' ∧
    (∀ key, conn'.params.lookup key =
      if key = "dbname".toList then some "c".toList else conn.params.lookup key) ∧
    replaceDbName url' "c".toList = some url' := by
  obtain ⟨conn, hconn⟩ := Option.isSome_iff_exists.mp
    (show (PgConn.parse socketUrl).isSome = true by decide)
  obtain ⟨url', conn', hspec⟩ := replaceDbName_spec hconn
    (show isIdent (chomp "c".toList) = true by decide)
  exact ⟨conn, url', conn', hconn, hspec⟩

end Fraisier.Config
