import Atlas.Chars.Percent
import Atlas.Error
import Atlas.Sql.Internet
import Atlas.Text

/-!
# Addresses of MySQL databases

An address is a URL. `Address.read?` reads it, and `databaseName` gives the database it names unless
another one is asked for.
-/

namespace Atlas.Sql.MySql

attribute [local instance (high)] instPowNat

/-- What counts of an address. -/
structure Address where
  host : String
  database : Option String
  deriving DecidableEq, Repr

/-! ## Hosts -/

/-- Characters that no host of a URL holds. -/
def forbiddenInHost : List Char :=
  ['\x00', '\t', '\n', '\r', ' ', '#', '/', ':', '<', '>', '?', '@', '[', '\\', ']', '^', '|']

/-- Whether the character may stand in the name of a host. -/
def isHostChar (c : Char) : Bool :=
  !forbiddenInHost.contains c && c != '%' && 0x20 < c.toNat && c.toNat != 0x7F

/-- The value of a number in the name of a host: octal after a zero, hexadecimal after `0x`. -/
def hostNumber? (s : List Char) : Option Nat :=
  let value (base : Nat) (ds : List Char) : Option Nat :=
    ds.foldlM (fun n c => do
      let d ← Json.hexValue? c
      if d < base then some (n * base + d) else none) 0
  match s with
  | '0' :: 'x' :: ds => value 16 ds
  | '0' :: 'X' :: ds => value 16 ds
  | '0' :: d :: ds => value 8 (d :: ds)
  | [] => none
  | ds => value 10 ds

/-- The parts of a host name, without an empty one at its end. -/
def hostParts (s : List Char) : List (List Char) :=
  let parts := Chars.splitOn '.' s
  if 1 < parts.length ∧ parts.getLast? = some [] then parts.dropLast else parts

/-- Whether a host name ends in a number, and so has to be a numeric address. -/
def endsInNumber (s : List Char) : Bool :=
  match (hostParts s).getLast? with
  | some p => p ≠ [] && (p.all Chars.isAsciiDigit || (hostNumber? p).isSome)
  | none => false

/-- Whether a host name is a numeric address: up to four numbers, of which the last one fills the
places of those missing. -/
def isNumericHost (s : List Char) : Bool :=
  match (hostParts s).mapM hostNumber? with
  | some ns =>
    ns.length ≤ 4 && ns.dropLast.all (· < 256) &&
      (ns.getLast?).all (· < 256 ^ (5 - ns.length))
  | none => false

/-- Reads a host. -/
def host? (s : List Char) : Option String :=
  match s with
  | '[' :: r =>
    if r.getLast? = some ']' ∧ isIpv6 r.dropLast then some (String.ofList s) else none
  | _ =>
    if s.any forbiddenInHost.contains then none
    else
      let name := (Utf8.decodeLossy (Chars.percentBytes s)).toList
      if name = [] ∨ !name.all isHostChar then none
      else if endsInNumber name ∧ !isNumericHost name then none
      else some (String.ofList name)

/-! ## URLs -/

/-- The parameters that a URL may have. -/
def knownParameters : List String :=
  ["user", "password", "host", "port", "socket", "db_name", "prefer_socket", "secure_auth",
    "tcp_keepalive_time_ms", "tcp_keepalive_probe_interval_secs", "tcp_keepalive_probe_count",
    "tcp_user_timeout_ms", "tcp_connect_timeout_ms", "stmt_cache_size", "compress", "pool_min",
    "pool_max", "reset_connection", "check_health", "enable_cleartext_plugin"]

/-- The text without blanks and control characters at its ends, and without line breaks. -/
def tidied (s : List Char) : List Char :=
  (Chars.trimWhile (fun c => c.toNat ≤ 0x20) s).filter fun c => !List.contains ['\t', '\n', '\r'] c

/-- What follows the scheme and two slashes. -/
def afterScheme? (s : List Char) : Option (List Char) := do
  let (scheme, rest) ← Chars.cut? "://".toList s
  if scheme.map Char.toLower = "mysql".toList then some rest else none

/-- What stands before the first of the characters, and the text from there on. -/
def cutAt (ends : List Char) (s : List Char) : List Char × List Char :=
  s.span fun c => !ends.contains c

/-- The host and the port of an authority, without brackets taken apart. -/
def cutPort (s : List Char) : List Char × Option (List Char) :=
  match s with
  | '[' :: _ =>
    match Chars.cut? [']'] s with
    | some (a, ':' :: port) => (a ++ [']'], some port)
    | _ => (s, none)
  | _ =>
    match Chars.cut? [':'] s with
    | some (host, port) => (host, some port)
    | none => (s, none)

/-- Whether the parameters after the question mark are known. -/
def isQuery (s : List Char) : Bool :=
  ((Chars.splitOn '&' s).filter (· ≠ [])).all fun p =>
    let name := ((Chars.cut? ['='] p).map (·.1)).getD p
    knownParameters.contains (Utf8.decodeLossy (Chars.percentBytes name))

/-- Reads a URL. -/
def Address.read? (url : String) : Option Address := do
  let s ← afterScheme? (tidied url.toList)
  let (s, _) := cutAt ['#'] s
  let (authority, s) := cutAt ['/', '?'] s
  let (path, query) := cutAt ['?'] s
  let authority := ((Chars.cutLast? '@' authority).map (·.2)).getD authority
  let (host, port) := cutPort authority
  if port.any fun p => p ≠ [] ∧ !(digits? p).any (· < 2 ^ (16 : Nat)) then none
  let host ← host? host
  if !isQuery (query.drop 1) then none
  let segment := (cutAt ['/'] (path.drop 1)).1
  return { host
           database :=
             if path = [] then none else some (Utf8.decodeLossy (Chars.percentBytes segment)) }

/-- The database that is read: the one asked for, or else the one that the URL names. -/
def databaseName (url : String) (given : Option String) : Result String :=
  let address := Address.read? url
  match given.or (address.bind (·.database)) with
  | none => .error (.config "no MySQL database name given")
  | some name =>
    if address.isSome then .ok name
    else .error (.config "invalid MySQL URL: the address cannot be read")

end Atlas.Sql.MySql
