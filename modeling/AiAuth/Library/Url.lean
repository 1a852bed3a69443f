import AiAuth.Library.Bytes
import Mathlib.Data.List.Sort

/-!
# URLs: parsing, percent-encoding, queries

Go's `net/url`: how a text is taken apart, which escapes each component admits,
and how a URL is written back. A parse error carries no information here, so
fallible functions answer in `Option`.
-/
namespace AiAuth.Library.Url

/-- The component a text is escaped for. -/
inductive Encoding
  | path | pathSegment | host | zone | userPassword | queryComponent | fragment
  deriving DecidableEq, Repr

structure Userinfo where
  username : Bytes
  password : Option Bytes
  deriving DecidableEq, Repr

/-- A parsed URL. `opaquePart` is the text after a scheme that has no leading slash. -/
structure URL where
  scheme : Bytes
  opaquePart : Bytes
  user : Option Userinfo
  host : Bytes
  path : Bytes
  rawPath : Bytes
  omitHost : Bool
  forceQuery : Bool
  rawQuery : Bytes
  fragment : Bytes
  rawFragment : Bytes
  deriving DecidableEq, Repr

def URL.empty : URL := ⟨[], [], none, [], [], [], false, false, [], [], []⟩

def isLower (c : UInt8) : Bool := ch 'a' ≤ c && c ≤ ch 'z'
def isUpper (c : UInt8) : Bool := ch 'A' ≤ c && c ≤ ch 'Z'
def isDigit (c : UInt8) : Bool := ch '0' ≤ c && c ≤ ch '9'
def isLetter (c : UInt8) : Bool := isLower c || isUpper c

/-- Control bytes: below the space, and delete. -/
def isCTL (c : UInt8) : Bool := c < 32 || c == 127

def toLower (s : Bytes) : Bytes := s.map fun c => if isUpper c then c + 32 else c

/-- Equality up to ASCII case. -/
def asciiFold (s t : Bytes) : Bool := toLower s == toLower t

theorem asciiFold_refl (s : Bytes) : asciiFold s s = true := beq_self_eq_true _

theorem asciiFold_nil (s : Bytes) (h : asciiFold [] s = true) : s = [] := by
  have hlen := congrArg List.length (beq_iff_eq.mp h)
  simp only [toLower, List.length_map, List.length_nil] at hlen
  exact List.length_eq_zero_iff.mp hlen.symm

def ishex (c : UInt8) : Bool :=
  isDigit c || (ch 'a' ≤ c && c ≤ ch 'f') || (ch 'A' ≤ c && c ≤ ch 'F')

def unhex (c : UInt8) : UInt8 :=
  if isDigit c then c - ch '0'
  else if ch 'a' ≤ c && c ≤ ch 'f' then c - ch 'a' + 10
  else if ch 'A' ≤ c && c ≤ ch 'F' then c - ch 'A' + 10
  else 0

def upperhex (n : UInt8) : UInt8 := if n < 10 then ch '0' + n else ch 'A' + (n - 10)

/-- Whether a byte must be percent-encoded in a component. -/
def shouldEscape (c : UInt8) (mode : Encoding) : Bool :=
  if isLetter c || isDigit c then false
  else if (mode = .host || mode = .zone) && c ∈ ascii "!$&'()*+,;=:[]<>\"" then false
  else if c ∈ ascii "-_.~" then false
  else if c ∈ ascii "$&+,/:;=?@" then
    match mode with
    | .path => c == ch '?'
    | .pathSegment => c ∈ ascii "/;,?"
    | .userPassword => c ∈ ascii "@/?:"
    | .queryComponent => true
    | .fragment => false
    | .host | .zone => true
  else if mode = .fragment && c ∈ ascii "!()*" then false
  else true

/-- Whether an escape of the two hex digits may stand in the component. Hosts admit
escapes of non-ASCII bytes and of the percent sign only. -/
def escapeAllowed (mode : Encoding) (h l : UInt8) : Bool :=
  match mode with
  | .host => !(unhex h < 8 && !(h == ch '2' && l == ch '5'))
  | .zone =>
    let v := unhex h * 16 + unhex l
    (h == ch '2' && l == ch '5') || v == ch ' ' || !shouldEscape v .host
  | _ => true

def unescape (mode : Encoding) : Bytes → Option Bytes
  | [] => some []
  | c :: rest =>
    if c = ch '%' then
      match rest with
      | h :: l :: rest =>
        if ishex h && ishex l && escapeAllowed mode h l then
          (unescape mode rest).map ((unhex h * 16 + unhex l) :: ·)
        else none
      | _ => none
    else if c = ch '+' && mode = .queryComponent then (unescape mode rest).map (ch ' ' :: ·)
    else if (mode = .host || mode = .zone) && c < 128 && shouldEscape c mode then none
    else (unescape mode rest).map (c :: ·)

/-- A percent-encoded byte. -/
def pct (c : UInt8) : Bytes := [ch '%', upperhex (c / 16), upperhex (c % 16)]

def escape (mode : Encoding) (s : Bytes) : Bytes :=
  s.flatMap fun c =>
    if c = ch ' ' && mode = .queryComponent then [ch '+']
    else if shouldEscape c mode then pct c
    else [c]

/-- The scheme loop: `i` bytes of `rawURL` have been accepted as scheme characters. -/
def getSchemeFrom (rawURL : Bytes) : ℕ → Bytes → Option (Bytes × Bytes)
  | _, [] => some ([], rawURL)
  | i, c :: rest =>
    if isLetter c then getSchemeFrom rawURL (i + 1) rest
    else if isDigit c || c ∈ ascii "+-." then
      if i = 0 then some ([], rawURL) else getSchemeFrom rawURL (i + 1) rest
    else if c = ch ':' then
      if i = 0 then none else some (rawURL.take i, rest)
    else some ([], rawURL)

def getScheme (rawURL : Bytes) : Option (Bytes × Bytes) := getSchemeFrom rawURL 0 rawURL

def validOptionalPort (port : Bytes) : Bool :=
  match port with
  | [] => true
  | c :: rest => c == ch ':' && rest.all isDigit

/-- The text up to and from the last occurrence of a separator, if it occurs. -/
def cutLast (sep : UInt8) (s : Bytes) : Option (Bytes × Bytes) :=
  if sep ∈ s then
    let after := s.reverse.takeWhile (· != sep)
    some (s.take (s.length - after.length - 1), after.reverse)
  else none

/-- The text before and from the first occurrence of a three-byte marker. -/
def splitAtMarker (m : Bytes) : Bytes → Option (Bytes × Bytes)
  | [] => none
  | c :: rest =>
    if m.isPrefixOf (c :: rest) then some ([], c :: rest)
    else (splitAtMarker m rest).map fun (a, b) => (c :: a, b)

def parseHost (host : Bytes) : Option Bytes :=
  if host.head? = some (ch '[') then
    match cutLast (ch ']') host with
    | none => none
    | some (inner, colonPort) =>
      if !validOptionalPort colonPort then none
      else match splitAtMarker (ascii "%25") inner with
        | some (addr, zone) => do
          let host1 ← unescape .host addr
          let host2 ← unescape .zone zone
          let host3 ← unescape .host (ch ']' :: colonPort)
          some (host1 ++ host2 ++ host3)
        | none => unescape .host host
  else match cutLast (ch ':') host with
    | some (_, port) =>
      if !validOptionalPort (ch ':' :: port) then none else unescape .host host
    | none => unescape .host host

def validUserinfo (s : Bytes) : Bool :=
  s.all fun c => isLetter c || isDigit c || c ∈ ascii "-._:~!$&'()*+,;=%@"

def parseAuthority (authority : Bytes) : Option (Option Userinfo × Bytes) :=
  match cutLast (ch '@') authority with
  | none => (parseHost authority).map fun host => (none, host)
  | some (userinfo, rest) => do
    let host ← parseHost rest
    if !validUserinfo userinfo then none
    else if ch ':' ∈ userinfo then
      let username ← unescape .userPassword (cut (ch ':') userinfo).1
      let password ← unescape .userPassword (cut (ch ':') userinfo).2
      some (some ⟨username, some password⟩, host)
    else
      let username ← unescape .userPassword userinfo
      some (some ⟨username, none⟩, host)

/-- Store a path, keeping its spelling when the default escaping would change it. -/
def URL.setPath (u : URL) (p : Bytes) : Option URL :=
  (unescape .path p).map fun path =>
    { u with path := path, rawPath := if p = escape .path path then [] else p }

def URL.setFragment (u : URL) (f : Bytes) : Option URL :=
  (unescape .fragment f).map fun fragment =>
    { u with fragment := fragment, rawFragment := if f = escape .fragment fragment then [] else f }

/-- Separate the query. A lone trailing question mark is remembered as a flag. -/
def splitQuery (rest : Bytes) : Bytes × Bytes × Bool :=
  if rest.getLast? = some (ch '?') && rest.count (ch '?') == 1 then (rest.dropLast, [], true)
  else ((cut (ch '?') rest).1, (cut (ch '?') rest).2, false)

/-- The part of the parser after the scheme and the query have been taken off. -/
def parseHierarchy (viaRequest : Bool) (u : URL) (rest : Bytes) : Option URL :=
  if rest.head? ≠ some (ch '/') ∧ u.scheme ≠ [] then some { u with opaquePart := rest }
  else if rest.head? ≠ some (ch '/') ∧ viaRequest then none
  else if rest.head? ≠ some (ch '/') ∧ ch ':' ∈ (cut (ch '/') rest).1 then none
  else if (u.scheme ≠ [] ∨ !viaRequest ∧ !(ascii "///").isPrefixOf rest) ∧
      (ascii "//").isPrefixOf rest then
    let authority := rest.drop 2
    (parseAuthority (authority.takeWhile (· != ch '/'))).bind fun (user, host) =>
      { u with user := user, host := host }.setPath (authority.dropWhile (· != ch '/'))
  else
    { u with omitHost := u.scheme ≠ [] && rest.head? = some (ch '/') }.setPath rest

/-- The parser proper; `viaRequest` when the text is the target of an HTTP request. -/
def parseFrom (viaRequest : Bool) (rawURL : Bytes) : Option URL :=
  if rawURL.any isCTL then none
  else if rawURL = [] ∧ viaRequest then none
  else if rawURL = ascii "*" then some { URL.empty with path := ascii "*" }
  else
    (getScheme rawURL).bind fun (scheme, rest) =>
      let (rest, rawQuery, forceQuery) := splitQuery rest
      parseHierarchy viaRequest
        { URL.empty with scheme := toLower scheme, rawQuery := rawQuery, forceQuery := forceQuery }
        rest

/-- `url.Parse`: the fragment is taken off first. -/
def parse (rawURL : Bytes) : Option URL :=
  let (u, frag) := cut (ch '#') rawURL
  (parseFrom false u).bind fun url => if frag = [] then some url else url.setFragment frag

/-- `url.ParseRequestURI`. -/
def parseRequestURI (rawURL : Bytes) : Option URL := parseFrom true rawURL

/-- `URL.Hostname`: the host without its port and without brackets. -/
def URL.hostname (u : URL) : Bytes :=
  let host := match cutLast (ch ':') u.host with
    | some (host, port) => if port.all isDigit then host else u.host
    | none => u.host
  if host.head? = some (ch '[') ∧ host.getLast? = some (ch ']') then (host.drop 1).dropLast
  else host

/-! ## Queries -/

/-- Query parameters in order of appearance; a key may occur several times. -/
abbrev Values := List (Bytes × Bytes)

/-- The first value of a key, or the empty text. -/
def Values.get (v : Values) (key : Bytes) : Bytes := (v.lookup key).getD []

/-- Replace all values of a key by one. -/
def Values.set (v : Values) (key value : Bytes) : Values :=
  v.filter (·.1 != key) ++ [(key, value)]

/-- One `key=value` setting of a query; malformed settings are dropped. -/
def parseSetting (s : Bytes) : Option (Bytes × Bytes) :=
  if ch ';' ∈ s || s = [] then none
  else do
    let key ← unescape .queryComponent (cut (ch '=') s).1
    let value ← unescape .queryComponent (cut (ch '=') s).2
    some (key, value)

/-- `url.ParseQuery` with the error ignored, as `URL.Query` does. -/
def parseQuery (query : Bytes) : Values := (splitOn (ch '&') query).filterMap parseSetting

/-- `Values.Encode`: settings sorted by key, in order within a key. -/
def Values.encode (v : Values) : Bytes :=
  let settings := (v.insertionSort fun a b => a.1 ≤ b.1).map fun (k, x) =>
    escape .queryComponent k ++ ch '=' :: escape .queryComponent x
  [ch '&'].intercalate settings

/-! ## Writing a URL -/

def validEncoded (s : Bytes) (mode : Encoding) : Bool :=
  s.all fun c => c ∈ ascii "!$&'()*+,;=:@[]%" || !shouldEscape c mode

def URL.escapedPath (u : URL) : Bytes :=
  if u.rawPath ≠ [] ∧ validEncoded u.rawPath .path ∧ unescape .path u.rawPath = some u.path then
    u.rawPath
  else if u.path = ascii "*" then ascii "*"
  else escape .path u.path

def URL.escapedFragment (u : URL) : Bytes :=
  if u.rawFragment ≠ [] ∧ validEncoded u.rawFragment .fragment ∧
      unescape .fragment u.rawFragment = some u.fragment then
    u.rawFragment
  else escape .fragment u.fragment

def Userinfo.string (ui : Userinfo) : Bytes :=
  escape .userPassword ui.username ++
    (ui.password.map fun p => ch ':' :: escape .userPassword p).getD []

/-- The `//user@host` part of a written URL. -/
def URL.writtenAuthority (u : URL) : Bytes :=
  if (u.scheme ≠ [] ∨ u.host ≠ [] ∨ u.user ≠ none) ∧
      ¬ (u.omitHost ∧ u.host = [] ∧ u.user = none) then
    (if u.host ≠ [] ∨ u.path ≠ [] ∨ u.user ≠ none then ascii "//" else []) ++
      (u.user.map fun ui => ui.string ++ [ch '@']).getD [] ++ escape .host u.host
  else []

/-- The text between the scheme and the query. -/
def URL.writtenHierarchy (u : URL) : Bytes :=
  let path := u.escapedPath
  let slash := if path ≠ [] ∧ path.head? ≠ some (ch '/') ∧ u.host ≠ [] then [ch '/'] else []
  let front := u.writtenAuthority ++ slash
  let dot :=
    if u.scheme = [] ∧ front = [] ∧ ch ':' ∈ (cut (ch '/') path).1 then ascii "./" else []
  front ++ dot ++ path

/-- `URL.String`. -/
def URL.string (u : URL) : Bytes :=
  (if u.scheme ≠ [] then u.scheme ++ [ch ':'] else []) ++
    (if u.opaquePart ≠ [] then u.opaquePart else u.writtenHierarchy) ++
    (if u.forceQuery ∨ u.rawQuery ≠ [] then ch '?' :: u.rawQuery else []) ++
    (if u.fragment ≠ [] then ch '#' :: u.escapedFragment else [])

end AiAuth.Library.Url
