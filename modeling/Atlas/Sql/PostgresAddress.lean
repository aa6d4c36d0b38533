import Atlas.Chars.Percent
import Atlas.Error
import Atlas.Sql.Internet
import Atlas.Text

/-!
# Addresses of PostgreSQL databases

An address is a URL or a list of parameters `name = value`. `readAddress?` gives its parameters, if
each of them is known and has a value of its kind, and `databaseName` the database it names.
-/

namespace Atlas.Sql.Postgres

attribute [local instance (high)] instPowNat

/-- Parameters by name; of several with one name the last one counts. -/
abbrev Parameters := List (String × String)

/-! ## Parameters -/

/-- What the value of a parameter has to be, for the parameters that are not free text. -/
def parameterKinds : List (String × (List Char → Bool)) :=
  let oneOf (ws : List String) : List Char → Bool := fun s => ws.contains (String.ofList s)
  let each (p : List Char → Bool) : List Char → Bool := fun s => (Chars.splitOn ',' s).all p
  [("user", fun _ => true), ("password", fun _ => true), ("dbname", fun _ => true),
    ("options", fun _ => true), ("application_name", fun _ => true), ("host", fun _ => true),
    ("sslmode", oneOf ["disable", "prefer", "require"]),
    ("sslnegotiation", oneOf ["postgres", "direct"]),
    ("hostaddr", each fun s => isIpv4 s || isIpv6 s),
    ("port", each fun s => s = [] || isNatural (2 ^ (16 : Nat)) s),
    ("connect_timeout", isInteger 63), ("tcp_user_timeout", isInteger 63),
    ("keepalives", isNatural (2 ^ (64 : Nat))), ("keepalives_idle", isInteger 63),
    ("keepalives_interval", isInteger 63), ("keepalives_retries", isNatural (2 ^ (32 : Nat))),
    ("target_session_attrs", oneOf ["any", "read-write", "read-only"]),
    ("channel_binding", oneOf ["disable", "prefer", "require"]),
    ("load_balance_hosts", oneOf ["disable", "random"])]

/-- A parameter with a known name and a value of its kind. -/
def parameter? (name value : String) : Option (String × String) :=
  match parameterKinds.lookup name with
  | some p => if p value.toList then some (name, value) else none
  | none => none

/-! ## Lists of parameters -/

/-- Reads a value that ends at a blank, or at a quote if it is quoted. A backslash stands before a
character that is meant as it is. -/
def value? (isQuoted : Bool) : List Char → Option (List Char × List Char)
  | [] => if isQuoted then none else some ([], [])
  | '\\' :: r =>
    match r with
    | [] => if isQuoted then none else some ([], [])
    | c :: r => (value? isQuoted r).map fun (v, r) => (c :: v, r)
  | c :: r =>
    if isQuoted then
      if c = '\'' then some ([], r) else (value? isQuoted r).map fun (v, r) => (c :: v, r)
    else
      if Chars.isBlank c then some ([], c :: r)
      else (value? isQuoted r).map fun (v, r) => (c :: v, r)

/-- Reads a parameter; there is none at the end, or where no name stands before the equals sign. -/
def next? (s : List Char) : Option (Option (String × String) × List Char) := do
  let isNameChar (c : Char) : Bool := !Chars.isBlank c && c != '='
  let s := Chars.trimStart s
  let name := s.takeWhile isNameChar
  if name = [] then return (none, s)
  let '=' :: s := Chars.trimStart (s.dropWhile isNameChar) | none
  match Chars.trimStart s with
  | '\'' :: r =>
    let (v, r) ← value? true r
    return (some (String.ofList name, String.ofList v), r)
  | s =>
    let (v, r) ← value? false s
    if v = [] then none
    return (some (String.ofList name, String.ofList v), r)

/-- Reads the parameters of a list; each of the `steps` reads one. -/
def list? : (steps : Nat) → List Char → Option Parameters
  | 0, _ => none
  | steps + 1, s => do
    match ← next? s with
    | (none, _) => return []
    | (some (name, value), r) =>
      let p ← parameter? name value
      return p :: (← list? steps r)

/-! ## URLs -/

/-- What stands before one of the characters, or all of the text. -/
def before (ends : List Char) (s : List Char) : List Char := s.takeWhile fun c => !ends.contains c

/-- The text from one of the characters on. -/
def since (starts : List Char) (s : List Char) : List Char := s.dropWhile fun c => !starts.contains c

/-- Reads a host; the path of a socket may be any bytes. -/
def host? (s : List Char) : Option (String × String) :=
  match Chars.percentBytes s with
  | bytes@(b :: _) =>
    if b = 0x2F then some ("host", Utf8.decodeLossy bytes) else (Utf8.decode? bytes).map ("host", ·)
  | [] => some ("host", "")

/-- Reads the parameters of one of several hosts, with its port. -/
def hostParameters? (s : List Char) : Option Parameters := do
  let (host, port) ← match s with
    | '[' :: r =>
      let (host, r) ← Chars.cut? [']'] r
      match r with
      | [] => some (host, none)
      | ':' :: port => some (host, some port)
      | _ => none
    | s =>
      match Chars.cut? [':'] s with
      | some (host, port) => some (host, some port)
      | none => some (s, none)
  let port ← Chars.percentDecode? (port.getD "5432".toList)
  return [← host? host, ← parameter? "port" port]

/-- Reads the name and the password before the hosts. -/
def credentials? (s : List Char) : Option Parameters := do
  match Chars.cut? [':'] s with
  | some (user, password) =>
    return [("user", ← Chars.percentDecode? user),
      ("password", Utf8.decodeLossy (Chars.percentBytes password))]
  | none => return [("user", ← Chars.percentDecode? s)]

/-- Reads a parameter after the question mark. -/
def queryParameter? (s : List Char) : Option (String × String) := do
  let (name, value) ← Chars.cut? ['='] s
  let name ← Chars.percentDecode? name
  if name = "host" then host? value else parameter? name (← Chars.percentDecode? value)

/-- The parts between ampersands after names. An ampersand before the equals sign belongs to the
name. -/
def queryParts : (steps : Nat) → List Char → List (List Char)
  | _, [] => []
  | 0, s => [s]
  | steps + 1, s =>
    let name := before ['='] s
    let rest := since ['='] s
    (name ++ before ['&'] rest) :: queryParts steps ((since ['&'] rest).drop 1)

/-- Reads what follows the two slashes of a URL. -/
def url? (s : List Char) : Option Parameters := do
  let (credentials, s) ← match Chars.cut? ['@'] s with
    | some (c, r) => (credentials? c).map (·, r)
    | none => some ([], s)
  let hosts := before ['/', '?'] s
  let hosts ← if hosts = [] then some [] else (Chars.splitOn ',' hosts).mapM hostParameters?
  let s := since ['/', '?'] s
  let path := if s.head? = some '/' then before ['?'] (s.drop 1) else []
  let path ← if path = [] then some [] else (Chars.percentDecode? path).map fun d => [("dbname", d)]
  let query := (since ['?'] s).drop 1
  let query ← (queryParts query.length query).mapM queryParameter?
  return credentials ++ hosts.flatten ++ path ++ query

/-! ## Addresses -/

/-- Reads the parameters of an address. -/
def readAddress? (s : String) : Option Parameters :=
  match Text.dropPrefix? "postgres://" s, Text.dropPrefix? "postgresql://" s with
  | some r, _ => url? r.toList
  | none, some r => url? r.toList
  | none, none => list? (s.length + 1) s.toList

/-- The database that an address names. -/
def databaseName (address : String) : Result String :=
  match readAddress? address with
  | none => .error (.config "invalid PostgreSQL URL: the address cannot be read")
  | some ps =>
    match ps.reverse.lookup "dbname" with
    | some name => .ok name
    | none => .error (.config "no PostgreSQL database name given")

end Atlas.Sql.Postgres
