import CrmAutomation.Failure
import CrmAutomation.Http.Host
import CrmAutomation.Number.IntegerText
import CrmAutomation.Text.Bytes

/-!
# URLs

`Url.read` splits a URL into its parts and escapes the characters that may not stand in them;
`Url.text` writes it. A URL with a scheme or a host has no dot segments. `Url.join` resolves a path
against the URL of a service: the path is appended, whatever it starts with.
-/

namespace CrmAutomation

/-- A URL whose parts are escaped. -/
structure Url where
  scheme : String
  userinfo : String
  host : String
  port : Option Int
  path : String
  query : Option String
  fragment : Option String
  deriving DecidableEq, Repr, Inhabited

namespace Url

/-! ## Escapes -/

/-- The two upper-case hexadecimal digits of a byte after a percent sign. -/
def escapeByte (b : UInt8) : List Char :=
  let digit (n : Nat) : Char := Char.ofNat (if n < 10 then 48 + n else 55 + n)
  ['%', digit (b.toNat / 16), digit (b.toNat % 16)]

/-- A character, its bytes being escaped unless it is safe. -/
def escapeChar (safe : Char → Bool) (c : Char) : List Char :=
  if safe c then [c] else (Bytes.ofText c.toString).flatMap escapeByte

def escape (safe : Char → Bool) (s : String) : String :=
  String.ofList (s.toList.flatMap (escapeChar safe))

/-- The value of a hexadecimal digit. -/
def hexValue? (c : Char) : Option Nat :=
  let n := c.toNat
  if 48 ≤ n ∧ n ≤ 57 then some (n - 48)
  else if 65 ≤ n ∧ n ≤ 70 then some (n - 55)
  else if 97 ≤ n ∧ n ≤ 102 then some (n - 87)
  else none

/-- The byte that a character and those after it escape. -/
def escapedByte? (c : Char) (rest : List Char) : Option UInt8 :=
  match c, rest with
  | '%', x :: y :: _ => do return UInt8.ofNat ((← hexValue? x) * 16 + (← hexValue? y))
  | _, _ => none

/-- The bytes that characters stand for, the first few of which are passed over. -/
def unescapeFrom : Nat → List Char → Bytes
  | _, [] => []
  | skipped + 1, _ :: rest => unescapeFrom skipped rest
  | 0, c :: rest =>
    match escapedByte? c rest with
    | some b => b :: unescapeFrom 2 rest
    | none => Bytes.ofText c.toString ++ unescapeFrom 0 rest

/-- A text with its escapes undone; bytes that write no text are replaced. -/
def unescape (s : String) : String := (unescapeFrom 0 s.toList).lossyText

/-- The printable ASCII characters but some. -/
def printableExcept (codes : List Nat) (c : Char) : Bool :=
  let n := c.toNat
  0x20 < n && n < 0x7F && !codes.contains n

/-- The characters that stand for themselves in a fragment. -/
def fragmentSafe : Char → Bool := printableExcept [0x22, 0x3C, 0x3E, 0x60]

/-- The characters that stand for themselves in a query. -/
def querySafe : Char → Bool := printableExcept [0x22, 0x23, 0x3C, 0x3E]

/-- The characters that stand for themselves in a path. -/
def pathSafe : Char → Bool :=
  printableExcept [0x22, 0x23, 0x3C, 0x3E, 0x3F, 0x60, 0x7B, 0x7D]

/-- The characters that stand for themselves before the host. -/
def userinfoSafe : Char → Bool :=
  printableExcept [0x22, 0x23, 0x3C, 0x3E, 0x3F, 0x60, 0x7B, 0x7D, 0x2F, 0x3B, 0x3D, 0x40, 0x5B,
    0x5C, 0x5D, 0x5E, 0x7C]

/-- The characters that stand for themselves in a host. -/
def hostSafe : Char → Bool :=
  printableExcept [0x23, 0x2F, 0x3A, 0x3C, 0x3E, 0x3F, 0x40, 0x5B, 0x5D, 0x5E]

/-- The characters that stand for themselves in the text of a URL. -/
def textSafe (c : Char) : Bool :=
  c.isAlphanum || "_.-~:/%#?=@[]!$&'()*+,;".toList.contains c

/-! ## Reading -/

def invalid (message : String) : Failure := .system .invalidUrl message

/-- The greatest length of a URL. -/
def maxLength : Nat := 65536

/-- Whether a character may not stand in a URL at all. -/
def isControl (c : Char) : Bool := c.toNat < 0x20 || c.toNat == 0x7F

def isSchemeChar (c : Char) : Bool :=
  c.isAlpha || c.isDigit || c == '+' || c == '.' || c == '-'

/-- The characters before the first one that `stops`, and the rest from there. -/
def cut (stops : Char → Bool) (cs : List Char) : List Char × List Char :=
  (cs.takeWhile fun c => !stops c, cs.dropWhile fun c => !stops c)

/-- The scheme and what follows its colon. -/
def splitScheme (cs : List Char) : List Char × List Char :=
  let (name, rest) := cut (fun c => !isSchemeChar c) cs
  match rest, name with
  | ':' :: after, [] => ([], after)
  | ':' :: after, c :: _ => if c.isAlpha then (name, after) else ([], cs)
  | _, _ => ([], cs)

/-- The authority after two slashes, and the rest. -/
def splitAuthority : List Char → List Char × List Char
  | '/' :: '/' :: rest => cut (fun c => c == '/' || c == '?' || c == '#') rest
  | rest => ([], rest)

/-- What is before the last `mark`, and what is after it; all is after it when there is none. -/
def splitLast (mark : Char) (cs : List Char) : List Char × List Char :=
  let after := (cs.reverse.takeWhile (· != mark)).reverse
  (cs.take (cs.length - after.length - 1), after)

/-- The host and the port that follows it. -/
def splitHost (cs : List Char) : List Char × List Char :=
  match cs with
  | '[' :: _ =>
    let (before, after) := splitLast ']' cs
    if before.isEmpty then cut (· == ':') cs else (before ++ [']'], after)
  | _ => cut (fun c => c == ':' || c == '@') cs

/-- The port that schemes use when none is given. -/
def defaultPort? : String → Option Int
  | "ftp" => some 21
  | "http" => some 80
  | "https" => some 443
  | "ws" => some 80
  | "wss" => some 443
  | _ => none

/-- The port, unless it is the default one of the scheme. -/
def furtherPort (scheme : String) (port : Option Int) : Option Int :=
  if port = defaultPort? scheme then none else port

/-- The port written after a host. -/
def portOf (cs : List Char) : Except Failure (Option Int) :=
  let digits := match cs with
    | ':' :: rest => rest
    | _ => cs
  if digits.isEmpty then .ok none
  else match Number.readInteger? (String.ofList digits) with
    | some n => .ok (some n)
    | none => .error (invalid "Invalid port")

/-- A host: an address, or a name in ASCII and lower case. -/
def hostText (cs : List Char) : Except Failure String :=
  let s := String.ofList cs
  if Http.Host.looksDotted cs then
    if Http.Host.isDotted s then .ok s else .error (invalid "Invalid IPv4 address")
  else if cs.head? = some '[' ∧ cs.getLast? = some ']' then
    let address := String.ofList (cs.drop 1).dropLast
    if Http.Host.isColonAddress address then .ok address
    else .error (invalid "Invalid IPv6 address")
  else if Text.Domain.isAscii cs then .ok (escape hostSafe (String.ofList (cs.map Char.toLower)))
  else match Text.Domain.encode? (Text.lower s).toList with
    | some name => .ok (String.ofList name)
    | none => .error (invalid "Invalid IDNA hostname")

/-- Adds a path segment to those before it, the latest first. -/
def pushSegment (output : List String) (segment : String) : List String :=
  if segment = "." then output
  else if segment = ".." then
    match output with
    | [] => []
    | [""] => [""]
    | _ :: rest => rest
  else segment :: output

/-- A path without dot segments. -/
def removeDots (path : String) : String :=
  let segments := Text.splitOn '/' path
  if segments.any fun s => s = "." || s = ".." then
    String.intercalate "/" (segments.foldl pushSegment []).reverse
  else path

/-- The path, query and fragment that characters write. -/
def splitPath (cs : List Char) : List Char × Option (List Char) × Option (List Char) :=
  let (path, rest) := cut (fun c => c == '?' || c == '#') cs
  match rest with
  | '?' :: afterMark =>
    let (query, rest) := cut (· == '#') afterMark
    (path, some query, if rest.isEmpty then none else some (rest.drop 1))
  | '#' :: fragment => (path, none, some fragment)
  | _ => (path, none, none)

/-- The URL with a path, query and fragment that are not escaped yet. Only what stands alone keeps its
dot segments. -/
def withPath (u : Url) (path : String) (query fragment : Option String) : Url :=
  let isAlone : Bool := u.scheme == "" && u.userinfo == "" && u.host == "" && u.port.isNone
  { u with
    path := escape pathSafe (if isAlone then path else removeDots path)
    query := query.map (escape querySafe)
    fragment := fragment.map (escape fragmentSafe) }

/-- The URL that a text writes, absolute or relative. -/
def read (s : String) : Except Failure Url := do
  let cs := s.toList
  if maxLength < cs.length then throw (invalid "URL too long")
  if cs.any isControl then throw (invalid "Invalid non-printable ASCII character in URL")
  let (scheme, afterScheme) := splitScheme cs
  let (authority, afterAuthority) := splitAuthority afterScheme
  let (userinfo, location) := splitLast '@' authority
  let (hostChars, portChars) := splitHost location
  let host ← hostText hostChars
  let port ← portOf portChars
  let (path, query, fragment) := splitPath afterAuthority
  let place : Url := {
    scheme := String.ofList (scheme.map Char.toLower)
    userinfo := escape userinfoSafe (String.ofList userinfo)
    host := host
    port := furtherPort (String.ofList scheme) port
    path := ""
    query := none
    fragment := none }
  if place = default then
    if ['/', '/'].isPrefixOf path then
      throw (invalid "Relative URLs cannot have a path starting with '//'")
    if [':'].isPrefixOf path then
      throw (invalid "Relative URLs cannot have a path starting with ':'")
  return place.withPath (String.ofList path) (query.map String.ofList) (fragment.map String.ofList)

/-! ## Writing -/

/-- The host and the port, as requests name them. -/
def location (u : Url) : String :=
  (if u.host.contains ':' then "[" ++ u.host ++ "]" else u.host)
    ++ (match u.port with
      | some n => ":" ++ toString n
      | none => "")

/-- The host with what stands around it. -/
def authority (u : Url) : String :=
  (if u.userinfo = "" then "" else u.userinfo ++ "@") ++ u.location

def text (u : Url) : String :=
  (if u.scheme = "" then "" else u.scheme ++ ":")
    ++ (if u.authority = "" then "" else "//" ++ u.authority)
    ++ u.path
    ++ (match u.query with
      | some q => "?" ++ q
      | none => "")
    ++ (match u.fragment with
      | some f => "#" ++ f
      | none => "")

/-! ## Resolving -/

def isAbsolute (u : Url) : Bool := u.scheme != "" && u.host != ""

/-- The path that is asked for. -/
def requestPath (u : Url) : String := if u.path = "" then "/" else u.path

/-- The path and query that are asked for. -/
def target (u : Url) : String :=
  u.requestPath ++ (match u.query with
    | some q => "?" ++ q
    | none => "")

/-- The same URL with another path and query. Its scheme is in lower case by now, so a default port
goes. -/
def withTarget (u : Url) (target : String) : Url :=
  let path := target.toList.takeWhile (· != '?')
  let query := target.toList.drop path.length
  { u with port := furtherPort u.scheme u.port }.withPath (String.ofList path)
    (if query.isEmpty then none else some (String.ofList (query.drop 1))) u.fragment

/-- The same URL with a slash at the end. -/
def asBase (u : Url) : Url :=
  if u.target.endsWith "/" then u else u.withTarget (u.target ++ "/")

/-- A URL seen from a base: an absolute one stays, what another asks for is appended to what the base
asks for. -/
def join (base other : Url) : Url :=
  if other.isAbsolute then other
  else base.withTarget
    (base.target ++ String.ofList (other.target.toList.dropWhile (· == '/')))

/-- The name and the password before the host. -/
def credentials (u : Url) : String × String :=
  let name := u.userinfo.toList.takeWhile (· != ':')
  (unescape (String.ofList name), unescape (String.ofList (u.userinfo.toList.drop (name.length + 1))))

/-- Whether the text of a URL begins with a scheme or what could be one. -/
def hasType (u : Url) : Bool :=
  match u.text.toList.dropWhile fun c => c != ':' && c != '/' with
  | ':' :: _ => !u.text.startsWith ":"
  | _ => false

end Url

end CrmAutomation
