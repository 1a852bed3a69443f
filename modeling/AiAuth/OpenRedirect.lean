import AiAuth.Authorize
import AiAuth.Library.UrlRoundTrip
import AiAuth.Registration

/-!
# Where the authorization endpoint redirects to

A `Location` leads to the login page with a pending id, or back to a registered redirect with an
error. Everything else is answered in place.
-/
namespace AiAuth.Redirect
open Library Library.Url

/-! ## The `Location` header -/

/-- One element of a path, after the elements `out` in reverse order. -/
def cleanStep (rooted : Bool) (out : List Bytes) (elem : Bytes) : List Bytes :=
  if elem = [] ∨ elem = ascii "." then out
  else if elem = ascii ".." then
    match out with
    | [] => if rooted then [] else [elem]
    | last :: rest => if last = ascii ".." then elem :: out else rest
  else elem :: out

/-- `path.Clean`. -/
def clean (p : Bytes) : Bytes :=
  let rooted := p.head? == some (ch '/')
  let body := [ch '/'].intercalate ((splitOn (ch '/') p).foldl (cleanStep rooted) []).reverse
  if rooted then ch '/' :: body else if body = [] then ascii "." else body

/-- The directory that `path.Split` cuts off. -/
def directory (p : Bytes) : Bytes :=
  match cutLast (ch '/') p with
  | some (dir, _) => dir ++ [ch '/']
  | none => []

/-- A target without scheme and host, under the path of the request. -/
def absolute (requestPath target : Bytes) : Bytes :=
  let oldpath := if requestPath = [] then ascii "/" else requestPath
  let target := if target.head? = some (ch '/') then target else directory oldpath ++ target
  let path := target.takeWhile (· != ch '?')
  let cleaned := clean path
  let slash :=
    if path.getLast? = some (ch '/') ∧ cleaned.getLast? ≠ some (ch '/') then [ch '/'] else []
  cleaned ++ slash ++ target.dropWhile (· != ch '?')

def lowerhex (n : UInt8) : UInt8 := if n < 10 then ch '0' + n else ch 'a' + (n - 10)

def hexEscapeNonASCII (s : Bytes) : Bytes :=
  s.flatMap fun c => if c < 128 then [c] else [ch '%', lowerhex (c / 16), lowerhex (c % 16)]

/-- What `http.Redirect` writes for a target, in answer to a request for a path. -/
def location (requestPath target : Bytes) : Bytes :=
  hexEscapeNonASCII <|
    match Url.parse target with
    | some u => if u.scheme = [] ∧ u.host = [] then absolute requestPath target else target
    | none => target

end AiAuth.Redirect

namespace AiAuth.Oidc
open Library Library.Url

/-- The header as it is sent to a request for `path`. -/
def locationHeader (path : Bytes) (r : Response) : Option Bytes :=
  r.location.map (Redirect.location path)

/-- The parameters of an error redirect. -/
def errorValues (err : AuthzError) (state : Bytes) : Values :=
  [(ascii "error", if err = .unsupportedType then ascii "unsupported_response_type"
      else ascii "invalid_request"), (ascii "error_description", err.text)] ++
    if state = [] then [] else [(ascii "state", state)]

/-- How a request for `path` with these parameters may end. -/
inductive Outcome (a : Authorize) (pending : PendingStore) (now : ℤ) (raw : Option Bytes)
    (params : Values) (path : Bytes) (res : Response × PendingStore) : Prop
  | login {entropy : Bytes} {req : AuthzRequest} {u : URL} {query : Bytes} :
    raw = some entropy → validateAuthz params a.clients.lookup = .ok req →
    req = ⟨params.get (ascii "client_id"), params.get (ascii "redirect_uri"),
      params.get (ascii "scope"), params.get (ascii "state"), params.get (ascii "code_challenge"),
      params.get (ascii "nonce")⟩ →
    res.2 = (pending.put now raw req).2 →
    res.2.requests.get (Base64.encode entropy) = some ⟨req, now + pendingTTL⟩ →
    Url.parse a.loginURL = some u →
    parseQuery query = ((parseQuery u.rawQuery).set (ascii "rid") (Base64.encode entropy)).sorted →
    locationHeader path res.1 = some (Redirect.location path { u with rawQuery := query }.string) →
    Outcome a pending now raw params path res
  | back {client : Client} {err : AuthzError} {u : URL} {loc : Bytes} :
    a.clients.lookup (params.get (ascii "client_id")) = some client →
    params.get (ascii "redirect_uri") ∈ client.redirectURIs →
    validateAuthz params a.clients.lookup = .error err →
    Url.parse (params.get (ascii "redirect_uri")) = some u →
    locationHeader path res.1 = some loc →
    ((∀ c ∈ zoneOf u.host, c < 128) → ∃ v, Url.parse loc = some v ∧ v.scheme = u.scheme ∧
      v.host = u.host ∧ v.path = u.path ∧
      parseQuery v.rawQuery = errorValues err (params.get (ascii "state"))) →
    res.2 = pending → Outcome a pending now raw params path res
  | inPlace : locationHeader path res.1 = none → res.2 = pending →
    Outcome a pending now raw params path res

section outcome
variable {a : Authorize} {params : Values} {err : AuthzError} {path : Bytes}

/-- A registered redirect is a scheme, an authority and a path, and has no query. -/
lemma registered_hierarchical {raw : Bytes} {u : URL} (h : validateRedirectURI raw = .ok ())
    (hu : Url.parse raw = some u) : u.rawQuery = [] ∧ (∃ text, parseHost text = some u.host) ∧
      ∀ query, Hierarchical { u with rawQuery := query } := by
  obtain ⟨u', s, tail, user, host, hu', hs, -, hauth, hset⟩ := accepted_url h
  obtain rfl := Option.some.inj (hu.symm.trans hu')
  obtain ⟨path, hpath, rfl⟩ := Option.map_eq_some_iff.mp hset
  refine ⟨rfl, ⟨_, parseAuthority_host hauth⟩, fun query => ?_⟩
  refine ⟨(toLower_scheme hs).1, (toLower_scheme hs).2, rfl,
    unescape_head (isPath_dropWhile _) hpath, ?_, rfl, rfl, rfl⟩
  dsimp only
  split_ifs
  · exact .inl rfl
  · exact isPath_dropWhile _

/-- What a reachable registry stores has passed the checks. -/
lemma stored_redirects {r : Registry} {tr : List (Client × Except RegisterError Unit)}
    (hr : Run (StepOf Registry.step) .new tr r) {id : Bytes} {c : Client}
    (hc : r.lookup id = some c) : ∀ raw ∈ c.redirectURIs, validateRedirectURI raw = .ok () := by
  revert id c
  refine hr.invariant (fun _ r => ∀ {id c}, r.lookup id = some c →
    ∀ raw ∈ c.redirectURIs, validateRedirectURI raw = .ok ()) (fun hc => by cases hc) ?_
  rintro tr r ⟨d, res⟩ r' - ih hs id c hc
  rcases Registry.step_cases hs with ⟨-, rfl⟩ | ⟨-, -, hvalid, hget⟩
  · exact ih hc
  · rw [hget] at hc
    split_ifs at hc with hid
    · obtain rfl := Option.some.inj hc
      exact hvalid
    · exact ih hc

end outcome

namespace Worked

/-- An address with a zone of two bytes that are not ASCII. -/
def zoned : Bytes := ascii "https://[::1%25" ++ [0xc3, 0xa9] ++ ascii "]/cb"

def client : Client := ⟨ascii "app", [ascii "https://app.example/cb", zoned]⟩

def authorize (r : Registry) : Authorize := ⟨r, ascii "/login"⟩

/-- A request without a scope. -/
def noScope : Values :=
  [(ascii "client_id", ascii "app"), (ascii "redirect_uri", zoned),
    (ascii "response_type", ascii "code"), (ascii "code_challenge", ascii "AAAA"),
    (ascii "code_challenge_method", ascii "S256")]

def complete : Values := (ascii "scope", ascii "openid") :: noScope

/-- The `Location` that a request gets in answer. -/
def answer (r : Registry) (params : Values) : Option Bytes :=
  locationHeader (ascii "/authorize") ((authorize r).serveHTTP .new 0 (some [1, 2, 3]) params).1

end Worked

end AiAuth.Oidc
