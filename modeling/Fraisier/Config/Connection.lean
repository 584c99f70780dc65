import Fraisier.Config.DbUrl

/-!
# One connection for a child and in process

The rest of `dbops/_pgconn.py`: the environment a child gets (`PgConn.childEnv`), the keywords of a
connection that is opened in process (`PgConn.connectKwargs`), and which ambient environments are
refused. What libpq makes of both is `Libpq.resolve`. `same_connection` says that the two are the same
connection, and that what is ambient does not count.

libpq is taken as its table of options, of which the module knows the variables and the keywords
without a compiled default that are not left empty. The proof goes option by option: what the child
has (`given_child`), what the connection in process has (`given_inProcess`), and that libpq fills in
what only one of them leaves out (`filled_eq`).
-/

namespace Fraisier.Config

open Fraisier.Lib Str Fallible

/-! ## The tables -/

/-- `_KEYWORD_ENV`. -/
def keywordEnv : List (Str × Str) :=
  [("service", "PGSERVICE"), ("user", "PGUSER"), ("password", "PGPASSWORD"),
    ("passfile", "PGPASSFILE"), ("channel_binding", "PGCHANNELBINDING"),
    ("connect_timeout", "PGCONNECT_TIMEOUT"), ("dbname", "PGDATABASE"), ("host", "PGHOST"),
    ("hostaddr", "PGHOSTADDR"), ("port", "PGPORT"), ("client_encoding", "PGCLIENTENCODING"),
    ("options", "PGOPTIONS"), ("application_name", "PGAPPNAME"), ("sslmode", "PGSSLMODE"),
    ("sslnegotiation", "PGSSLNEGOTIATION"), ("sslcompression", "PGSSLCOMPRESSION"),
    ("sslcert", "PGSSLCERT"), ("sslkey", "PGSSLKEY"), ("sslcertmode", "PGSSLCERTMODE"),
    ("sslrootcert", "PGSSLROOTCERT"), ("sslcrl", "PGSSLCRL"), ("sslcrldir", "PGSSLCRLDIR"),
    ("sslsni", "PGSSLSNI"), ("requirepeer", "PGREQUIREPEER"), ("require_auth", "PGREQUIREAUTH"),
    ("min_protocol_version", "PGMINPROTOCOLVERSION"),
    ("max_protocol_version", "PGMAXPROTOCOLVERSION"),
    ("ssl_min_protocol_version", "PGSSLMINPROTOCOLVERSION"),
    ("ssl_max_protocol_version", "PGSSLMAXPROTOCOLVERSION"), ("gssencmode", "PGGSSENCMODE"),
    ("krbsrvname", "PGKRBSRVNAME"), ("gsslib", "PGGSSLIB"), ("gssdelegation", "PGGSSDELEGATION"),
    ("target_session_attrs", "PGTARGETSESSIONATTRS"),
    ("load_balance_hosts", "PGLOADBALANCEHOSTS")].map fun entry => (entry.1.toList, entry.2.toList)

/-- `OPERATOR_DEFAULTS`. -/
def operatorDefaults : List Str :=
  ["PGSSLROOTCERT", "PGSSLCERT", "PGSSLKEY", "PGSSLCRL", "PGSSLCRLDIR", "PGPASSFILE",
    "PGREQUIREAUTH", "PGCONNECT_TIMEOUT", "PGAPPNAME"].map String.toList

/-- `TRANSPORT_POLICY`, sorted. -/
def transportPolicy : List Str :=
  ["PGCHANNELBINDING", "PGGSSENCMODE", "PGGSSLIB", "PGKRBSRVNAME", "PGSSLCERTMODE",
    "PGSSLMAXPROTOCOLVERSION", "PGSSLMINPROTOCOLVERSION", "PGSSLMODE",
    "PGSSLNEGOTIATION"].map String.toList

/-- `SESSION_VARIABLES`, sorted. -/
def sessionVariables : List Str := ["PGDATESTYLE", "PGGEQO", "PGTZ"].map String.toList

def sslcertmode : Str := "sslcertmode".toList
def minProtocolVersion : Str := "min_protocol_version".toList
def maxProtocolVersion : Str := "max_protocol_version".toList

/-- `_UNSET_DEFAULTS`. -/
def unsetDefaults : List (Str × Str) :=
  [(sslcertmode, "allow".toList), (minProtocolVersion, "3.0".toList),
    (maxProtocolVersion, "3.0".toList)]

/-! ## libpq -/

/-- One entry of `PQconndefaults()`. -/
structure ConninfoOption where
  keyword : Str
  envvar : Option Str
  compiled : Option Str
  deriving DecidableEq, Repr

/-- The installed libpq. It may lack keywords of `keywordEnv`, but gives no other variable to one. -/
structure Libpq where
  options : List ConninfoOption
  nodup : (options.map (·.keyword)).Nodup
  envvar_eq : ∀ o ∈ options, o.envvar = keywordEnv.lookup o.keyword
  compiled_eq : ∀ o ∈ options, o.keyword ∈ unsetDefaults.map Prod.fst → o.compiled = none
  min_of_max : maxProtocolVersion ∈ options.map (·.keyword) →
    minProtocolVersion ∈ options.map (·.keyword)
  /-- Whether a minimum of the protocol's version is above 3.0, or `none` when it is refused. -/
  above : Str → Option Bool
  above_eq_false_iff : ∀ v, above v = some false ↔ v = "3.0".toList

/-- An environment, or keywords, by their names. The first entry of a name counts. -/
abbrev Settings := List (Str × Str)

section

variable (emptyUnset : Str → Bool) (libpq : Libpq) (conninfo environ : Settings)

/-- What an option is given: what the conninfo says, else its variable, else its compiled default. -/
def ConninfoOption.given (o : ConninfoOption) : Option Str :=
  (conninfo.lookup o.keyword).or ((o.envvar.bind fun var => environ.lookup var).or o.compiled)

/-- What is read of it. An empty text reads as unset for a keyword without a compiled default, unless
it is one of those for which it does not. -/
def ConninfoOption.read (o : ConninfoOption) (given : Option Str) : Option Str :=
  if given = some [] ∧ o.compiled = none ∧ emptyUnset o.keyword = true then none else given

/-- What a keyword is given that is unset after this. -/
def filled (above : Bool) (keyword : Str) : Option Str :=
  if keyword = sslcertmode then some "allow".toList
  else if keyword = minProtocolVersion then some "3.0".toList
  else if keyword = maxProtocolVersion then some (if above then "latest" else "3.0").toList
  else none

/-- The minimum of the protocol's version. -/
def minimum (values : List (Str × Option Str)) : Str :=
  (values.lookup minProtocolVersion).join.getD "3.0".toList

/-- The values of all keywords, once each is filled in: `none` when the minimum is refused. -/
def Libpq.fill (values : List (Str × Option Str)) : Option (List (Str × Option Str)) :=
  (libpq.above (minimum values)).map fun above => values.map fun entry =>
    (entry.1, entry.2.or (filled above entry.1))

/-- How libpq resolves every keyword. -/
def Libpq.resolve : Option (List (Str × Option Str)) :=
  libpq.fill (libpq.options.map fun o => (o.keyword, o.read emptyUnset (o.given conninfo environ)))

end

/-! ## The two connections -/

/-- `scrubbed`. -/
def scrubbed (environ : Settings) : Settings :=
  environ.filter fun entry => !startsWith entry.1 "PG".toList || entry.1 ∈ operatorDefaults

/-- `is_socket`. -/
def isSocket (pgEnv : Settings) : Bool :=
  if (pgEnv.lookup "PGHOSTADDR".toList).getD [] ≠ [] then false
  else ((pgEnv.lookup "PGHOST".toList).getD []).splitOn ',' |>.all fun host =>
    host = [] || host.head? = some '/' || host.head? = some '@'

/-- `v in environ`. -/
def Settings.has (environ : Settings) (var : Str) : Bool := (environ.lookup var).isSome

/-- `ENV_KEYWORD[var]`. -/
def envKeyword (var : Str) : Str := ((keywordEnv.find? (·.2 = var)).map (·.1)).getD []

/-- `transport_refusal`. -/
def transportRefusal (environ pgEnv : Settings) : Option Str :=
  if isSocket pgEnv then none
  else
    let dropped := transportPolicy.filter fun v => environ.has v && !pgEnv.has v
    if dropped = [] then none
    else
      let fix := List.intercalate ['&'] (dropped.map fun v =>
        envKeyword v ++ '=' :: (environ.lookup v).getD [])
      some (List.intercalate ", ".toList dropped ++
        (" is set in the environment, and fraisier no longer passes it to database clients: " ++
          "put it in the URL (?").toList ++ fix ++ ")".toList)

/-- `environment_refusal`. -/
def environmentRefusal (environ pgEnv : Settings) : Option Str :=
  if environ.has "PGSERVICE".toList then
    some ("PGSERVICE is set in the environment, and fraisier does not read service files: " ++
      "unset it, and put the connection in the URL").toList
  else transportRefusal environ pgEnv

/-- `in_process_refusal`. -/
def inProcessRefusal (environ : Settings) : Option Str :=
  let present := sessionVariables.filter fun v => environ.has v
  if present = [] then none
  else some (List.intercalate ", ".toList present ++
    (" is set in the environment, and libpq sends it to every connection fraisier opens in " ++
      "process, where it cannot be dropped: unset it (a session default belongs to the role or " ++
      "the database: ALTER ROLE … SET)").toList)

namespace PgConn

variable (conn : PgConn) (libpq : Libpq) (environ : Settings)

/-- `PgConn.pg_env`. -/
def pgEnv : Settings :=
  conn.params.map fun entry => ((keywordEnv.lookup entry.1).getD [], entry.2)

/-- `PgConn.check_environment`, or the text of its `ValueError`. -/
def checkEnvironment : Except Str Unit :=
  match environmentRefusal environ conn.pgEnv with
  | some refusal => .error refusal
  | none => .ok ()

/-- `PgConn.check_in_process`. -/
def checkInProcess : Except Str Unit := do
  conn.checkEnvironment environ
  match inProcessRefusal environ with
  | some refusal => .error refusal
  | none => .ok ()

/-- `PgConn.child_env`. -/
def childEnv : Except Str Settings := do
  conn.checkEnvironment environ
  return conn.pgEnv ++ scrubbed environ

end PgConn

/-- What `_pinned` gives an option, if it does. -/
def ConninfoOption.pin (o : ConninfoOption) : Option Str :=
  match o.envvar with
  | none | some [] => none
  | some var =>
    if o.keyword = "service".toList ∨ var ∈ operatorDefaults then none
    else some (o.compiled.getD ((unsetDefaults.lookup o.keyword).getD []))

/-- `_pinned`. -/
def Libpq.pinned (libpq : Libpq) : Settings :=
  libpq.options.filterMap fun o => o.pin.map (o.keyword, ·)

namespace PgConn

variable (conn : PgConn) (libpq : Libpq) (environ : Settings)

/-- What `unset_pins` starts with. -/
def plainPins : Settings :=
  libpq.pinned.filter fun entry =>
    (unsetDefaults.lookup entry.1).isSome && (conn.params.lookup entry.1).isNone

/-- `PgConn.unset_pins`. -/
def unsetPins : Settings :=
  if (conn.plainPins libpq).has maxProtocolVersion ∧
      (conn.params.lookup minProtocolVersion).getD "3.0".toList ≠ "3.0".toList then
    (maxProtocolVersion, "latest".toList) :: conn.plainPins libpq
  else conn.plainPins libpq

/-- `PgConn.connect_kwargs`. -/
def connectKwargs : Except Str Settings := do
  conn.checkInProcess environ
  return conn.params ++ (conn.unsetPins libpq ++ libpq.pinned)

/-! ## One connection for both -/

variable (emptyUnset : Str → Bool)

/-- What a child connects with, which is given no conninfo. -/
def child : Except Str (Option (List (Str × Option Str))) :=
  (conn.childEnv environ).map fun env => libpq.resolve emptyUnset [] env

/-- What a connection that is opened in process connects with. -/
def inProcess : Except Str (Option (List (Str × Option Str))) :=
  (conn.connectKwargs libpq environ).map fun kwargs => libpq.resolve emptyUnset kwargs environ

end PgConn

/-- The environments agree on the operator's defaults and on all that is no variable of libpq's. -/
def Agree (environ environ' : Settings) : Prop :=
  ∀ var, startsWith var "PG".toList = false ∨ var ∈ operatorDefaults →
    environ.lookup var = environ'.lookup var

/-- Both connections are the same one, whatever is ambient. -/
structure SameConnection (emptyUnset : Str → Bool) (libpq : Libpq) (conn : PgConn) : Prop where
  same : ∀ environ, conn.checkInProcess environ = .ok () → ∃ resolved,
    conn.child libpq environ emptyUnset = .ok resolved ∧
      conn.inProcess libpq environ emptyUnset = .ok resolved
  ambient : ∀ environ environ', Agree environ environ' → conn.checkInProcess environ = .ok () →
    conn.checkInProcess environ' = .ok () →
    conn.child libpq environ emptyUnset = conn.child libpq environ' emptyUnset ∧
      conn.inProcess libpq environ emptyUnset = conn.inProcess libpq environ' emptyUnset

/-- The keywords for which libpq does not refuse an empty text. -/
def takesEmpty (keyword : Str) : Bool := keyword ∉ unsetDefaults.map Prod.fst

/-! ## The keywords of a URL -/

section Keywords

variable {conn : PgConn} {url : Str}

/-- The parameters are keywords that `parse` accepts. -/
def PgConn.Known (conn : PgConn) : Prop := ∀ entry ∈ conn.params, entry.1 ∈ keywords

/-- A URL gives keywords that libpq knows. -/
theorem PgConn.known (h : PgConn.parse url = some conn) : conn.Known := by
  obtain ⟨netloc, path, query, server, base, kvs, -, hserver, hbase, hkvs, rfl, -⟩ := parse_iff.mp h
  have hserverKeywords : ∀ key ∈ serverKeywords, key ∈ keywords := by decide
  have hkept : SetKeeps PgConn.Known := fun conn key value hkey hconn =>
    List.forall_mem_cons.mpr ⟨hserverKeywords key hkey, hconn⟩
  have hknown := hkept.base nofun hserver hbase
  refine List.forall_mem_append.mpr ⟨fun entry hentry => ?_, hknown⟩
  obtain ⟨param, -, hparam⟩ := exists_of_mapM hkvs (List.mem_reverse.mp hentry)
  exact keyword_of_readParam hparam

end Keywords

/-! ## The variables -/

section Variables

variable {conn : PgConn} {environ environ' : Settings} {keyword var : Str}

/-- No two keywords have one variable. -/
theorem nodup_variables : (keywordEnv.map Prod.snd).Nodup := by decide

/-- Each keyword has a variable. -/
theorem variable_of_keyword (h : keyword ∈ keywords) : ∃ var, keywordEnv.lookup keyword = some var := by
  have hall : ∀ keyword ∈ keywords, (keywordEnv.lookup keyword).isSome = true := by decide
  exact Option.isSome_iff_exists.mp (hall keyword h)

/-- The variables of keywords begin with `PG`. -/
theorem startsWith_variable (h : keywordEnv.lookup keyword = some var) :
    startsWith var "PG".toList = true := by
  have hall : ∀ entry ∈ keywordEnv, startsWith entry.2 "PG".toList = true := by decide
  exact hall _ (mem_of_lookup h)

/-- A variable is that of one keyword. -/
theorem keyword_eq (h : keywordEnv.lookup keyword = some var) {other : Str}
    (hother : keywordEnv.lookup other = some var) : keyword = other :=
  lookup_injective nodup_variables h hother

/-- A variable of the child is the keyword of the URL. -/
theorem lookup_pgEnv (hknown : conn.Known) (h : keywordEnv.lookup keyword = some var) :
    conn.pgEnv.lookup var = conn.params.lookup keyword := by
  obtain ⟨params⟩ := conn
  unfold PgConn.pgEnv
  unfold PgConn.Known at hknown
  dsimp only at hknown ⊢
  -- Induction on the parameters: keywords and variables name each other.
  induction params with
  | nil => rfl
  | cons entry params ih =>
    obtain ⟨key, value⟩ := entry
    rw [List.forall_mem_cons] at hknown
    obtain ⟨var', hvar'⟩ := variable_of_keyword hknown.1
    rw [List.map_cons, List.lookup_cons, List.lookup_cons, ih hknown.2, hvar', Option.getD_some]
    by_cases hkey : keyword = key
    · subst hkey
      obtain rfl : var = var' := Option.some.inj (h.symm.trans hvar')
      rw [beq_self_eq_true, beq_self_eq_true]
    · have hvar : var ≠ var' := fun heq => hkey (keyword_eq h (heq ▸ hvar'))
      rw [beq_false_of_ne hvar, beq_false_of_ne hkey]

/-- What is left of a variable of libpq's in a child. -/
def inherited (environ : Settings) (var : Str) : Option Str :=
  if var ∈ operatorDefaults then environ.lookup var else none

/-- A variable of libpq is inherited when it is one of the operator's. -/
theorem lookup_scrubbed (h : startsWith var "PG".toList = true) :
    (scrubbed environ).lookup var = inherited environ var := by
  have hfilter := lookup_filter_key
    (fun name => !startsWith name "PG".toList || name ∈ operatorDefaults) environ var
  unfold scrubbed inherited
  rw [hfilter, h]
  simp

/-- Environments that agree have the same inherited. -/
theorem Agree.inherited (h : Agree environ environ') (var : Str) :
    inherited environ var = inherited environ' var := by
  unfold Config.inherited
  by_cases hvar : var ∈ operatorDefaults
  · rw [if_pos hvar, if_pos hvar, h var (.inr hvar)]
  · rw [if_neg hvar, if_neg hvar]

end Variables

/-! ## What an option is given -/

section Given

variable {conn : PgConn} {libpq : Libpq} {environ : Settings} {o : ConninfoOption}

/-- The variable of an option is that of its keyword. -/
theorem Libpq.variable (ho : o ∈ libpq.options) {var : Str} (h : o.envvar = some var) :
    keywordEnv.lookup o.keyword = some var := (libpq.envvar_eq o ho).symm.trans h

/-- What a child has. -/
theorem given_child (hknown : conn.Known) (ho : o ∈ libpq.options) :
    o.given [] (conn.pgEnv ++ scrubbed environ) =
      (conn.params.lookup o.keyword).or ((o.envvar.bind (inherited environ)).or o.compiled) := by
  unfold ConninfoOption.given
  rw [List.lookup_nil, Option.none_or]
  -- A keyword without a variable is never set by the URL.
  cases hvar : o.envvar with
  | none =>
    have hnone : conn.params.lookup o.keyword = none := by
      refine lookup_of_forall_ne fun entry hentry heq => ?_
      obtain ⟨var, hlookup⟩ := variable_of_keyword (hknown entry hentry)
      rw [heq, ← libpq.envvar_eq o ho, hvar] at hlookup
      nomatch hlookup
    rw [hnone]
    rfl
  | some var =>
    have hlookup := Libpq.variable ho hvar
    rw [Option.bind_some, Option.bind_some, List.lookup_append, lookup_pgEnv hknown hlookup,
      lookup_scrubbed (startsWith_variable hlookup), Option.or_assoc]

/-- The pin of an option is its own. -/
theorem lookup_pinned (ho : o ∈ libpq.options) : libpq.pinned.lookup o.keyword = o.pin :=
  lookup_filterMap libpq.nodup ConninfoOption.pin ho

/-- What a connection in process has. -/
theorem given_inProcess (ho : o ∈ libpq.options) :
    o.given (conn.params ++ (conn.unsetPins libpq ++ libpq.pinned)) environ =
      (conn.params.lookup o.keyword).or (((conn.unsetPins libpq).lookup o.keyword).or
        (o.pin.or ((o.envvar.bind fun var => environ.lookup var).or o.compiled))) := by
  unfold ConninfoOption.given
  rw [List.lookup_append, List.lookup_append, lookup_pinned ho, Option.or_assoc, Option.or_assoc]

/-- An option that was not given is pinned if it has a default that is unset. -/
theorem lookup_plainPins (ho : o ∈ libpq.options) : (conn.plainPins libpq).lookup o.keyword =
    if (unsetDefaults.lookup o.keyword).isSome && (conn.params.lookup o.keyword).isNone then o.pin
    else none := by
  have hfilter := lookup_filter_key (fun keyword => (unsetDefaults.lookup keyword).isSome &&
    (conn.params.lookup keyword).isNone) libpq.pinned o.keyword
  rw [lookup_pinned ho] at hfilter
  exact hfilter

/-- What is pinned apart from the maximum. -/
theorem lookup_unsetPins_ne (hne : o.keyword ≠ maxProtocolVersion) :
    (conn.unsetPins libpq).lookup o.keyword = (conn.plainPins libpq).lookup o.keyword := by
  unfold PgConn.unsetPins
  split
  · rw [List.lookup_cons, beq_false_of_ne hne]
  · rfl

/-- What is read of an option in a child, and in process. -/
def inChild (conn : PgConn) (environ : Settings) (o : ConninfoOption) : Option Str :=
  o.read takesEmpty
    ((conn.params.lookup o.keyword).or ((o.envvar.bind (inherited environ)).or o.compiled))

def ofProcess (conn : PgConn) (libpq : Libpq) (environ : Settings) (o : ConninfoOption) :
    Option Str :=
  o.read takesEmpty ((conn.params.lookup o.keyword).or (((conn.unsetPins libpq).lookup o.keyword).or
    (o.pin.or ((o.envvar.bind fun var => environ.lookup var).or o.compiled))))

/-- A child resolves each option from its environment. -/
theorem resolve_child (hknown : conn.Known) :
    libpq.resolve takesEmpty [] (conn.pgEnv ++ scrubbed environ) =
      libpq.fill (libpq.options.map fun o => (o.keyword, inChild conn environ o)) := by
  unfold Libpq.resolve inChild
  refine congrArg libpq.fill (List.map_congr_left fun o ho => ?_)
  rw [given_child hknown ho]

/-- A connection in process resolves each option from its arguments. -/
theorem resolve_inProcess :
    libpq.resolve takesEmpty (conn.params ++ (conn.unsetPins libpq ++ libpq.pinned)) environ =
      libpq.fill (libpq.options.map fun o => (o.keyword, ofProcess conn libpq environ o)) := by
  unfold Libpq.resolve ofProcess
  refine congrArg libpq.fill (List.map_congr_left fun o ho => ?_)
  rw [given_inProcess ho]

/-- A value that is not empty is read as it is. -/
theorem read_of_ne {given : Option Str} (h : takesEmpty o.keyword = false ∨ given ≠ some []) :
    o.read takesEmpty given = given := by
  unfold ConninfoOption.read
  refine if_neg fun hunset => ?_
  rcases h with h | h
  · rw [h] at hunset
    exact Bool.false_ne_true hunset.2.2
  · exact h hunset.1

/-- What the URL says is what both have. -/
theorem same_of_param {value : Str} (h : conn.params.lookup o.keyword = some value) :
    inChild conn environ o = ofProcess conn libpq environ o := by
  unfold inChild ofProcess
  rw [h]
  rfl

/-- A keyword that libpq takes an empty text for. -/
theorem same_of_takesEmpty (ho : o ∈ libpq.options) (htakes : takesEmpty o.keyword = true)
    (hservice : environ.lookup "PGSERVICE".toList = none) :
    inChild conn environ o = ofProcess conn libpq environ o := by
  -- The URL says it, or the environment does.
  cases hparam : conn.params.lookup o.keyword with
  | some value => exact same_of_param hparam
  | none =>
    have hnot : o.keyword ∉ unsetDefaults.map Prod.fst := of_decide_eq_true htakes
    have hunset : unsetDefaults.lookup o.keyword = none :=
      lookup_of_forall_ne fun entry hentry heq => hnot (heq ▸ List.mem_map_of_mem hentry)
    have hmax : o.keyword ≠ maxProtocolVersion := fun heq => hnot (heq ▸ by decide)
    unfold inChild ofProcess
    rw [hparam, lookup_unsetPins_ne hmax, lookup_plainPins ho, hunset]
    simp only [Option.none_or, Option.isSome_none, Bool.false_and, Bool.false_eq_true, if_false]
    -- Without a variable both take the default.
    cases hvar : o.envvar with
    | none =>
      have hpin : o.pin = none := by rw [ConninfoOption.pin, hvar]
      rw [hpin]
      rfl
    | some var =>
      have hlookup := Libpq.variable ho hvar
      have hpg := startsWith_variable hlookup
      have hpin : o.pin = if o.keyword = "service".toList ∨ var ∈ operatorDefaults then none
          else some (o.compiled.getD []) := by
        cases var with
        | nil => exact absurd hpg (by decide)
        | cons c var => rw [ConninfoOption.pin, hvar]; simp only [hunset, Option.getD_none]
      rw [hpin, Option.bind_some, Option.bind_some, inherited]
      by_cases hop : var ∈ operatorDefaults
      · rw [if_pos hop, if_pos (.inr hop)]
        rfl
      · rw [if_neg hop]
        by_cases hkey : o.keyword = "service".toList
        · have hpgservice : var = "PGSERVICE".toList := by
            rw [hkey] at hlookup
            exact Option.some.inj (hlookup.symm.trans (by decide))
          rw [if_pos (.inl hkey), hpgservice, hservice]
          rfl
        · rw [if_neg (not_or.mpr ⟨hkey, hop⟩)]
          unfold ConninfoOption.read
          cases hcompiled : o.compiled with
          | none => simp [htakes]
          | some default => simp

end Given

/-! ## What libpq fills in -/

section Fill

variable {conn : PgConn} {libpq : Libpq} {environ : Settings} {o : ConninfoOption}

/-- A keyword that libpq refuses an empty text for has a variable that no child inherits. -/
theorem variable_of_not_takesEmpty {keyword : Str} (h : takesEmpty keyword = false) :
    ∃ var, keywordEnv.lookup keyword = some var ∧ var ∉ operatorDefaults ∧ var ≠ [] ∧
      keyword ≠ "service".toList ∧ ∃ value, unsetDefaults.lookup keyword = some value := by
  have hmem : keyword ∈ unsetDefaults.map Prod.fst := by simpa [takesEmpty] using h
  have hall : ∀ keyword ∈ unsetDefaults.map Prod.fst,
      (keywordEnv.lookup keyword).any (fun var => var ∉ operatorDefaults ∧ var ≠ []) = true ∧
        keyword ≠ "service".toList ∧ (unsetDefaults.lookup keyword).isSome = true := by decide
  obtain ⟨hvar, hservice, hvalue⟩ := hall keyword hmem
  cases hlookup : keywordEnv.lookup keyword with
  | none =>
    rw [hlookup] at hvar
    nomatch hvar
  | some var =>
    rw [hlookup, Option.any_some, decide_eq_true_eq] at hvar
    exact ⟨var, rfl, hvar.1, hvar.2, hservice, Option.isSome_iff_exists.mp hvalue⟩

/-- Such a keyword that the URL leaves out is unset in a child. -/
theorem inChild_eq_none (ho : o ∈ libpq.options) (h : takesEmpty o.keyword = false)
    (hparam : conn.params.lookup o.keyword = none) : inChild conn environ o = none := by
  obtain ⟨var, hlookup, hop, -, -, -⟩ := variable_of_not_takesEmpty h
  have hmem : o.keyword ∈ unsetDefaults.map Prod.fst := by simpa [takesEmpty] using h
  unfold inChild
  rw [hparam, libpq.envvar_eq o ho, hlookup, libpq.compiled_eq o ho hmem, Option.bind_some, inherited,
    if_neg hop]
  exact read_of_ne (.inl h)

/-- In process it is pinned. -/
theorem lookup_plainPins_eq (ho : o ∈ libpq.options) (h : takesEmpty o.keyword = false)
    (hparam : conn.params.lookup o.keyword = none) :
    (conn.plainPins libpq).lookup o.keyword = unsetDefaults.lookup o.keyword := by
  obtain ⟨var, hlookup, hop, hne, hservice, value, hvalue⟩ := variable_of_not_takesEmpty h
  have hmem : o.keyword ∈ unsetDefaults.map Prod.fst := by simpa [takesEmpty] using h
  have hcompiled := libpq.compiled_eq o ho hmem
  have hvar := (libpq.envvar_eq o ho).trans hlookup
  rw [lookup_plainPins ho, hparam, hvalue]
  simp only [Option.isSome_some, Option.isNone_none, Bool.and_true, if_true]
  cases var with
  | nil => exact absurd rfl hne
  | cons c var =>
    rw [ConninfoOption.pin, hvar]
    simp only [hservice, hop, or_self, if_false, hcompiled, hvalue, Option.getD_none, Option.getD_some]

/-- An option with a pin takes it where no parameter is given. -/
theorem ofProcess_eq {value : Str} (h : takesEmpty o.keyword = false)
    (hparam : conn.params.lookup o.keyword = none)
    (hpin : (conn.unsetPins libpq).lookup o.keyword = some value) :
    ofProcess conn libpq environ o = some value := by
  unfold ofProcess
  rw [hparam, hpin]
  exact read_of_ne (.inl h)

/-- The minimum that both have. -/
def givenMinimum (conn : PgConn) : Str :=
  (conn.params.lookup minProtocolVersion).getD "3.0".toList

/-- The minimum is the one that the URL says, if libpq knows it. -/
theorem minimum_eq {f : ConninfoOption → Option Str}
    (h : ∀ o ∈ libpq.options, o.keyword = minProtocolVersion →
      (f o).getD "3.0".toList = givenMinimum conn) :
    minimum (libpq.options.map fun o => (o.keyword, f o)) =
      if minProtocolVersion ∈ libpq.options.map (·.keyword) then givenMinimum conn
      else "3.0".toList := by
  unfold minimum
  -- libpq may be too old to know the keyword.
  by_cases hmin : minProtocolVersion ∈ libpq.options.map (·.keyword)
  · obtain ⟨o, ho, hkey⟩ := List.mem_map.mp hmin
    rw [if_pos hmin, ← h o ho hkey, ← hkey, lookup_map_name libpq.nodup f ho]
    rfl
  · have hnone : (libpq.options.map fun o => (o.keyword, f o)).lookup minProtocolVersion = none := by
      refine lookup_of_forall_ne fun entry hentry heq => hmin ?_
      obtain ⟨o, ho, rfl⟩ := List.mem_map.mp hentry
      exact heq ▸ List.mem_map_of_mem ho
    rw [if_neg hmin, hnone]
    rfl

/-- The least version of the protocol takes no empty value. -/
theorem not_takesEmpty_min : takesEmpty minProtocolVersion = false := by decide

/-- A child takes the given least version, or 3.0. -/
theorem inChild_min (ho : o ∈ libpq.options) (hkey : o.keyword = minProtocolVersion) :
    (inChild conn environ o).getD "3.0".toList = givenMinimum conn := by
  have htakes : takesEmpty o.keyword = false := hkey ▸ not_takesEmpty_min
  unfold givenMinimum
  rw [← hkey]
  cases hparam : conn.params.lookup o.keyword with
  | none => rw [inChild_eq_none ho htakes hparam]
  | some value =>
    unfold inChild
    rw [hparam, read_of_ne (.inl htakes)]
    rfl

/-- A connection in process takes the given least version, or 3.0. -/
theorem ofProcess_min (ho : o ∈ libpq.options) (hkey : o.keyword = minProtocolVersion) :
    (ofProcess conn libpq environ o).getD "3.0".toList = givenMinimum conn := by
  cases hparam : conn.params.lookup o.keyword with
  | some value => rw [← same_of_param hparam, inChild_min ho hkey]
  | none =>
    have htakes : takesEmpty o.keyword = false := hkey ▸ not_takesEmpty_min
    have hne : o.keyword ≠ maxProtocolVersion := hkey ▸ by decide
    have hpin : (conn.unsetPins libpq).lookup o.keyword = some "3.0".toList := by
      rw [lookup_unsetPins_ne hne, lookup_plainPins_eq ho htakes hparam, hkey]
      decide
    rw [ofProcess_eq htakes hparam hpin, givenMinimum, ← hkey, hparam]
    rfl

/-- The maximum that is pinned is the one that libpq derives from the minimum. -/
theorem lookup_unsetPins_max (ho : o ∈ libpq.options) (hkey : o.keyword = maxProtocolVersion)
    (hparam : conn.params.lookup o.keyword = none) :
    (conn.unsetPins libpq).lookup o.keyword =
      some (if givenMinimum conn ≠ "3.0".toList then "latest" else "3.0").toList := by
  have htakes : takesEmpty o.keyword = false := hkey ▸ by decide
  have hplain : (conn.plainPins libpq).lookup maxProtocolVersion = some "3.0".toList := by
    rw [← hkey, lookup_plainPins_eq ho htakes hparam, hkey]
    decide
  have hhas : (conn.plainPins libpq).has maxProtocolVersion = true := by
    rw [Settings.has, hplain]
    rfl
  unfold PgConn.unsetPins
  rw [hhas, hkey]
  -- A minimum that is higher unpins the maximum.
  by_cases hmin : givenMinimum conn ≠ "3.0".toList
  · rw [if_pos ⟨rfl, hmin⟩, if_pos hmin, List.lookup_cons_self]
  · rw [if_neg fun h => hmin h.2, if_neg hmin, hplain]

/-- What only one of the two leaves out is filled in. -/
theorem filled_eq (ho : o ∈ libpq.options) (hservice : environ.lookup "PGSERVICE".toList = none)
    {above : Bool} (habove : o.keyword = maxProtocolVersion →
      libpq.above (givenMinimum conn) = some above) :
    (inChild conn environ o).or (filled above o.keyword) =
      (ofProcess conn libpq environ o).or (filled above o.keyword) := by
  -- The URL says it, or the environment does.
  cases htakes : takesEmpty o.keyword with
  | true => rw [same_of_takesEmpty ho htakes hservice]
  | false =>
    cases hparam : conn.params.lookup o.keyword with
    | some value => rw [same_of_param hparam]
    | none =>
      rw [inChild_eq_none ho htakes hparam, Option.none_or]
      by_cases hmax : o.keyword = maxProtocolVersion
      · have hfilled : filled above o.keyword = some (if above then "latest" else "3.0").toList := by
          rw [hmax]
          rfl
        have hiff : above = true ↔ givenMinimum conn ≠ "3.0".toList := by
          rw [← not_iff_not, not_not, ← libpq.above_eq_false_iff, habove hmax]
          simp
        rw [ofProcess_eq htakes hparam (lookup_unsetPins_max ho hmax hparam), hfilled]
        by_cases hmin : givenMinimum conn ≠ "3.0".toList
        · rw [if_pos hmin, if_pos (hiff.mpr hmin)]
          rfl
        · rw [if_neg hmin, if_neg fun h => hmin (hiff.mp h)]
          rfl
      · obtain ⟨-, -, -, -, -, value, hvalue⟩ := variable_of_not_takesEmpty htakes
        have hpin : (conn.unsetPins libpq).lookup o.keyword = some value := by
          rw [lookup_unsetPins_ne hmax, lookup_plainPins_eq ho htakes hparam, hvalue]
        have hfilled : filled above o.keyword = unsetDefaults.lookup o.keyword := by
          have hmem : o.keyword ∈ unsetDefaults.map Prod.fst := by simpa [takesEmpty] using htakes
          generalize o.keyword = keyword at hmem hmax ⊢
          revert hmax
          simp only [unsetDefaults, List.map_cons, List.map_nil, List.mem_cons, List.not_mem_nil,
            or_false] at hmem
          rcases hmem with rfl | rfl | rfl <;> cases above <;> decide
        rw [ofProcess_eq htakes hparam hpin, hfilled, hvalue]
        rfl

end Fill

/-! ## The same connection -/

section Same

variable {conn : PgConn} {environ environ' : Settings} {url : Str}

/-- What both connections are filled up to is the same. -/
theorem fill_eq (conn : PgConn) (libpq : Libpq)
    (hservice : environ.lookup "PGSERVICE".toList = none) :
    libpq.fill (libpq.options.map fun o => (o.keyword, inChild conn environ o)) =
      libpq.fill (libpq.options.map fun o => (o.keyword, ofProcess conn libpq environ o)) := by
  unfold Libpq.fill
  rw [minimum_eq fun o ho hkey => inChild_min ho hkey,
    minimum_eq fun o ho hkey => ofProcess_min ho hkey]
  generalize hminimum : (if minProtocolVersion ∈ libpq.options.map (·.keyword) then givenMinimum conn
    else "3.0".toList) = least
  -- Only a minimum that libpq knows fills up anything.
  cases habove : libpq.above least with
  | none => rfl
  | some above =>
    rw [Option.map_some, Option.map_some, List.map_map, List.map_map]
    refine congrArg some (List.map_congr_left fun o ho => ?_)
    refine congrArg (Prod.mk o.keyword) (filled_eq ho hservice fun hmax => ?_)
    have hmin := libpq.min_of_max (hmax ▸ List.mem_map_of_mem ho)
    rw [if_pos hmin] at hminimum
    rw [hminimum, habove]

/-- An environment that is not refused for a connection in process is not refused for a child. -/
theorem checkEnvironment_ok (h : conn.checkInProcess environ = .ok ()) :
    conn.checkEnvironment environ = .ok () := by
  unfold PgConn.checkInProcess at h
  cases hcheck : conn.checkEnvironment environ with
  | error refusal =>
    rw [hcheck] at h
    nomatch h
  | ok => rfl

/-- A connection that passed its check names no service. -/
theorem no_service (h : conn.checkInProcess environ = .ok ()) :
    environ.lookup "PGSERVICE".toList = none := by
  have hcheck := checkEnvironment_ok h
  unfold PgConn.checkEnvironment environmentRefusal at hcheck
  cases hhas : environ.has "PGSERVICE".toList with
  | true =>
    rw [hhas] at hcheck
    nomatch hcheck
  | false => simpa [Settings.has] using hhas

/-- What a child connects with, option by option. -/
theorem child_eq (hknown : conn.Known) (libpq : Libpq)
    (h : conn.checkInProcess environ = .ok ()) :
    conn.child libpq environ takesEmpty =
      .ok (libpq.fill (libpq.options.map fun o => (o.keyword, inChild conn environ o))) := by
  unfold PgConn.child PgConn.childEnv
  rw [checkEnvironment_ok h, ← resolve_child hknown]
  rfl

/-- What a connection in process connects with, option by option. -/
theorem inProcess_eq (libpq : Libpq) (h : conn.checkInProcess environ = .ok ()) :
    conn.inProcess libpq environ takesEmpty =
      .ok (libpq.fill (libpq.options.map fun o => (o.keyword, ofProcess conn libpq environ o))) := by
  unfold PgConn.inProcess PgConn.connectKwargs
  rw [h, ← resolve_inProcess]
  rfl

/-- What a child has comes from the URL and from the operator's defaults. -/
theorem inChild_congr (h : Agree environ environ') : inChild conn environ = inChild conn environ' := by
  funext o
  unfold inChild
  rw [funext h.inherited]

/-- A child and a connection in process are the same connection, and the ambient environment does not
redirect them. -/
theorem same_connection (h : PgConn.parse url = some conn) (libpq : Libpq) :
    SameConnection takesEmpty libpq conn := by
  have hknown := PgConn.known h
  -- In process as in a child, the connection is filled up to the same.
  have hboth : ∀ environ, conn.checkInProcess environ = .ok () →
      conn.inProcess libpq environ takesEmpty = conn.child libpq environ takesEmpty := by
    intro environ hok
    rw [inProcess_eq libpq hok, child_eq hknown libpq hok, fill_eq conn libpq (no_service hok)]
  constructor
  case same =>
    intro environ hok
    exact ⟨_, child_eq hknown libpq hok, (hboth environ hok).trans (child_eq hknown libpq hok)⟩
  case ambient =>
    intro environ environ' hagree hok hok'
    have hchild : conn.child libpq environ takesEmpty = conn.child libpq environ' takesEmpty := by
      rw [child_eq hknown libpq hok, child_eq hknown libpq hok', inChild_congr hagree]
    exact ⟨hchild, (hboth environ hok).trans (hchild.trans (hboth environ' hok').symm)⟩

end Same

/-! ## An empty minimum -/

/-- libpq 18, as far as its keywords have variables. -/
def libpq18 : Libpq where
  options :=
    let compiled : List (String × String) := [("channel_binding", "prefer"), ("port", "5432"),
      ("options", ""), ("sslmode", "prefer"), ("sslnegotiation", "postgres"),
      ("sslcompression", "0"), ("sslsni", "1"), ("ssl_min_protocol_version", "TLSv1.2"),
      ("gssencmode", "prefer"), ("krbsrvname", "postgres"), ("gssdelegation", "0"),
      ("target_session_attrs", "any"), ("load_balance_hosts", "disable")]
    keywordEnv.map fun entry =>
      { keyword := entry.1
        envvar := some entry.2
        compiled := (compiled.find? (·.1.toList = entry.1)).map (·.2.toList) }
  nodup := by decide
  envvar_eq := by decide
  compiled_eq := by decide
  min_of_max := by decide
  above := fun version =>
    if version = "3.0".toList then some false
    else if version = "3.2".toList ∨ version = "latest".toList then some true
    else none
  above_eq_false_iff := fun version => by
    by_cases h : version = "3.0".toList
    · simp [h]
    · rw [if_neg h]
      split <;> exact iff_of_false nofun h

def plainMinimum : Str := "postgresql://u@db.example.io/app?min_protocol_version=3.2".toList

def emptyMinimum : Str := "postgresql:///app?min_protocol_version=".toList

/-- A URL that gives a least version of the protocol. -/
theorem same_connection_plain : ∃ conn, PgConn.parse plainMinimum = some conn ∧
    SameConnection takesEmpty libpq18 conn := by
  obtain ⟨conn, hconn⟩ : ∃ conn, PgConn.parse plainMinimum = some conn :=
    Option.isSome_iff_exists.mp (by decide)
  exact ⟨conn, hconn, same_connection hconn libpq18⟩

/-- What the URL with an empty minimum is read as. -/
def emptyConn : PgConn := ⟨[(minProtocolVersion, []), ("dbname".toList, "app".toList)]⟩

/-- The maximum that is resolved. -/
def maximum (resolved : Option (List (Str × Option Str))) : Option Str :=
  resolved.bind fun values => (values.lookup maxProtocolVersion).join

/-- Where an empty text reads as unset for every keyword without a compiled default, the maximum is
3.0 in a child, and the latest in process. -/
theorem emptyMinimum_differs : PgConn.parse emptyMinimum = some emptyConn ∧
    ¬SameConnection (fun _ => true) libpq18 emptyConn := by
  refine ⟨by decide, fun h => ?_⟩
  obtain ⟨resolved, hchild, hinProcess⟩ := h.same [] rfl
  have hearliest : (emptyConn.child libpq18 [] fun _ => true).map maximum =
      .ok (some "3.0".toList) := by rfl
  have hlatest : (emptyConn.inProcess libpq18 [] fun _ => true).map maximum =
      .ok (some "latest".toList) := by rfl
  rw [hchild] at hearliest
  rw [hinProcess] at hlatest
  exact absurd (hearliest.symm.trans hlatest) (by decide)

end Fraisier.Config
