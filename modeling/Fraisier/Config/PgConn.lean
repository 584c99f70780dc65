import Fraisier.Lib.Decimal

/-!
# PostgreSQL URLs

`dbops/_pgconn.py` reads a URL as libpq does: the part before the first slash, the path, and the
query in its order, each later value in the place of an earlier one. `PgConn.parse` gives up with a
`ValueError` on whatever libpq would refuse or read differently; the texts of those errors are not
read here.
-/

namespace Fraisier.Config

open Fraisier.Lib Str

/-! ## Parameters -/

/-- The keys of `_KEYWORD_ENV`, without `service`, which is refused. -/
def keywords : List Str :=
  ["user", "password", "passfile", "channel_binding", "connect_timeout", "dbname", "host",
    "hostaddr", "port", "client_encoding", "options", "application_name", "sslmode",
    "sslnegotiation", "sslcompression", "sslcert", "sslkey", "sslcertmode", "sslrootcert", "sslcrl",
    "sslcrldir", "sslsni", "requirepeer", "require_auth", "min_protocol_version",
    "max_protocol_version", "ssl_min_protocol_version", "ssl_max_protocol_version", "gssencmode",
    "krbsrvname", "gsslib", "gssdelegation", "target_session_attrs",
    "load_balance_hosts"].map String.toList

/-- `_check_keyword` accepts the key. -/
def checkKeyword (key : Str) : Bool := key ∈ keywords

/-- `PgConn`: its parameters, the last one first. -/
structure PgConn where
  params : List (Str × Str)
  deriving DecidableEq, Repr

/-- `params.get(key)`. -/
def PgConn.get (conn : PgConn) (key : String) : Option Str := conn.params.lookup key.toList

/-- `params[key] = value`. -/
def PgConn.set (conn : PgConn) (key value : Str) : PgConn := ⟨(key, value) :: conn.params⟩

/-! ## Pieces of a URL -/

/-- The value of a hexadecimal digit. -/
def hexDigit (c : Char) : Option ℕ :=
  if '0' ≤ c ∧ c ≤ '9' then some (c.toNat - '0'.toNat)
  else if 'a' ≤ c ∧ c ≤ 'f' then some (c.toNat - 'a'.toNat + 10)
  else if 'A' ≤ c ∧ c ≤ 'F' then some (c.toNat - 'A'.toNat + 10)
  else none

/-- The bytes of a component, with its escapes read. -/
def decodeBytes : Str → Option (List UInt8)
  | '%' :: a :: b :: s => do
    let byte := 16 * (← hexDigit a) + (← hexDigit b)
    if byte = 0 then none
    else
      let bytes ← decodeBytes s
      some (UInt8.ofNat byte :: bytes)
  | '%' :: _ => none
  | c :: s => do
    let bytes ← decodeBytes s
    some (String.utf8EncodeChar c ++ bytes)
  | [] => some []

/-- `decode`. A component without an escape is itself. -/
def decode (component : Str) : Option Str :=
  if '%' ∈ component then
    (decodeBytes component).bind fun bytes => decodeUtf8 ⟨bytes.toArray⟩
  else some component

/-- `split_netloc`. -/
def splitNetloc (netloc : Str) : Option (Str × Str) :=
  match Str.partition '@' netloc with
  | (_, false, _) => some ([], netloc)
  | (userinfo, true, hostport) => if '@' ∈ hostport then none else some (userinfo, hostport)

/-- `split_url`, without the scheme: the netloc, the path and the query. -/
def splitUrl (url : Str) : Option (Str × Str × Str) :=
  let schemes := ["postgresql://".toList, "postgres://".toList]
  (schemes.find? url.startsWith).map fun scheme =>
    let (rest, _, query) := Str.partition '?' (url.drop scheme.length)
    let (netloc, _, path) := Str.partition '/' rest
    (netloc, path, query)

/-- `query_params`. -/
def queryParams (query : Str) : List Str :=
  let params := if query = [] then [] else query.splitOn '&'
  if 1 < params.length ∧ params.getLast? = some [] then params.dropLast else params

/-- `split_param`. -/
def splitParam (param : Str) : Option (Str × Str) :=
  match Str.partition '=' param with
  | (_, false, _) => none
  | (key, true, value) => some (key, value)

/-- `_host_port`. -/
def hostPort (entry : Str) : Option (Str × Str) :=
  match entry with
  | '[' :: inner =>
    match Str.partition ']' inner with
    | (_, false, _) => none
    | (host, true, rest) =>
      if rest ≠ [] ∧ rest.head? ≠ some ':' then none else some (host, rest.drop 1)
  | _ =>
    let (host, _, port) := Str.partition ':' entry
    do some (← decode host, ← decode port)

/-! ## The URL -/

/-- The user and the password. -/
def PgConn.addUser (conn : PgConn) (userinfo : Str) : Option PgConn :=
  if userinfo = [] then some conn
  else do
    let (user, colon, password) := Str.partition ':' userinfo
    let conn ← if user = [] then some conn else (decode user).map (conn.set "user".toList)
    if colon then (decode password).map (conn.set "password".toList) else some conn

/-- The hosts and the ports. -/
def PgConn.addHosts (conn : PgConn) (hostport : Str) : Option PgConn :=
  if hostport = [] then some conn
  else do
    let pairs ← (hostport.splitOn ',').mapM hostPort
    let conn := if pairs.any (·.1 ≠ []) then
      conn.set "host".toList (List.intercalate [','] (pairs.map (·.1))) else conn
    some (if pairs.any (·.2 ≠ []) then
      conn.set "port".toList (List.intercalate [','] (pairs.map (·.2))) else conn)

/-- One parameter of the query. `ssl=true` is libpq's JDBC spelling. -/
def PgConn.addParam (conn : PgConn) (param : Str) : Option PgConn := do
  let (rawKey, rawValue) ← splitParam param
  let key ← decode rawKey
  let value ← decode rawValue
  let (key, value) := if key = "ssl".toList ∧ value = "true".toList then
    ("sslmode".toList, "require".toList) else (key, value)
  if checkKeyword key then some (conn.set key value) else none

/-- `PgConn.parse`: `none` when it raises `ValueError`. -/
def PgConn.parse (url : Str) : Option PgConn := do
  let (netloc, path, query) ← splitUrl url
  let (userinfo, hostport) ← splitNetloc netloc
  let conn ← PgConn.addUser ⟨[]⟩ userinfo
  let conn ← conn.addHosts hostport
  let conn ← if path = [] then some conn else (decode path).map (conn.set "dbname".toList)
  let conn ← (queryParams query).foldlM PgConn.addParam conn
  if (conn.get "dbname").getD [] = [] then none else some conn

/-- `PgConn.host`. -/
def PgConn.host (conn : PgConn) : Option Str := conn.get "host"

/-- `PgConn.port`, or `none` when `int` raises `ValueError`. -/
def PgConn.port (conn : PgConn) : Option (Option ℤ) :=
  match conn.get "port" with
  | none | some [] => some none
  | some port => if ',' ∈ port then some none else (readInt port).map some

example : (PgConn.parse "postgresql://u:p@db.example.io:5433/app?sslmode=require&host=h2".toList).map
    (fun c => (c.host, c.port)) = some (some "h2".toList, some (some 5433)) := by decide

end Fraisier.Config
