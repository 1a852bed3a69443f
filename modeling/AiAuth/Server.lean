import AiAuth.Discovery
import AiAuth.CredentialPrivacy
import AiAuth.KeyEncodings
import AiAuth.OpenRedirect

/-!
# The HTTP surface

One mux for all endpoints. The endpoints of the code flow exist only where a signer and the
clients are configured, and those of the login only where there is a ceremony besides. Every
response leaves with the same security headers.
-/
namespace AiAuth.Server
open Library Library.Url Oidc Login CryptoService

/-- A request as the handlers read it; the body is there as a form and as a finish request. -/
structure Request where
  method : Bytes
  url : URL
  dpop : Bytes
  form : Option Values
  finish : Option FinishRequest

/-- `guard` says whether there is a Guard to probe, `dpop` whether proofs are verified. No store for
codes is configured, so they are kept in memory. -/
structure Config where
  version : Bytes
  guard : Bool
  issuer : Bytes
  audience : Bytes
  signer : Option Tokens.Signer
  signingKeys : List (Bytes × P256.Point)
  clients : Option Registry
  loginURL : Bytes
  login : Option Ceremony
  dpop : Bool

/-- The stores behind the endpoints. -/
structure Stores where
  login : Login.Stores
  seen : Dpop.ReplayCache

def Stores.new (credentials : Credentials) : Stores :=
  ⟨⟨.new, credentials, .new, .new⟩, .new Dpop.ReplayCache.capacity⟩

/-- What a request finds outside: clocks, random bytes and the Guard. `probe` is the error of a
probe that fails; the random bytes of a finish request are with its clocks. -/
structure Surroundings where
  now : ℤ
  finish : Login.Readings
  exchange : TokenReadings
  raw : Option Bytes
  seed : Bytes
  uuid : Bytes
  rpc : VerifyAssertionRequest → Option VerifyAssertionResponse
  probe : Option Bytes

/-- The endpoints, each with what it is configured with. -/
inductive Handler
  | healthz (version : Bytes)
  | readyz (version : Bytes) (guard : Bool)
  | authorize (a : Authorize)
  | token (t : Token)
  | discovery (doc : Metadata)
  | jwks (keys : JWKS)
  | begin (c : Ceremony)
  | finish (c : Ceremony)

def get : Bytes := ascii "GET"
def post : Bytes := ascii "POST"

/-- The answers of the health endpoints. -/
def writeJSON (status : ℕ) (members : List (Bytes × Bytes)) : Response :=
  ⟨status, [(ascii "Content-Type", ascii "application/json"),
    (ascii "Cache-Control", ascii "no-store")], .json (.strings members)⟩

def healthz (version : Bytes) : Response :=
  writeJSON 200 [(ascii "status", ascii "ok"), (ascii "version", version)]

/-- A gateway whose Guard does not answer must not receive traffic. -/
def readyz (version : Bytes) (guard : Bool) (probe : Option Bytes) : Response :=
  if !guard then
    writeJSON 200 [(ascii "guard", ascii "not configured"), (ascii "status", ascii "ready"),
      (ascii "version", version)]
  else match probe with
    | some err =>
      writeJSON 503 [(ascii "guard", err), (ascii "status", ascii "not ready"),
        (ascii "version", version)]
    | none =>
      writeJSON 200 [(ascii "guard", ascii "ok"), (ascii "status", ascii "ready"),
        (ascii "version", version)]

def strings (items : List Bytes) : Json := .array (items.map Json.string)

def metadataJSON (m : Metadata) : Json :=
  .object [(ascii "issuer", .string m.issuer),
    (ascii "authorization_endpoint", .string m.authorizationEndpoint),
    (ascii "token_endpoint", .string m.tokenEndpoint), (ascii "jwks_uri", .string m.jwksURI),
    (ascii "response_types_supported", strings m.responseTypesSupported),
    (ascii "grant_types_supported", strings m.grantTypesSupported),
    (ascii "code_challenge_methods_supported", strings m.codeChallengeMethodsSupported),
    (ascii "id_token_signing_alg_values_supported", strings m.idTokenSigningAlgValuesSupported),
    (ascii "token_endpoint_auth_methods_supported", strings m.tokenEndpointAuthMethodsSupported),
    (ascii "dpop_signing_alg_values_supported", strings m.dpopSigningAlgValuesSupported),
    (ascii "scopes_supported", strings m.scopesSupported),
    (ascii "subject_types_supported", strings m.subjectTypesSupported)]

/-- A document that may be cached for five minutes. -/
def published (method contentType : Bytes) (doc : Json) : Response :=
  if method ≠ get then .error [] (ascii "GET required") 405
  else ⟨200, [(ascii "Content-Type", contentType),
    (ascii "Cache-Control", ascii "public, max-age=300")], .json doc⟩

/-- An empty set of keys is written as `null`. -/
def jwksJSON (s : JWKS) : Json :=
  .object [(ascii "keys",
    if s.keys = [] then .null else .array (s.keys.map fun k => .object (k.members id)))]

/-- What the token endpoint reads of a request. -/
def Request.exchange (r : Request) : TokenRequest := ⟨r.method, r.form, r.dpop⟩

namespace Handler

def serve (P : Dpop.Platform) (J : Tokens.Codec) (s : Stores) (x : Surroundings) (r : Request) :
    Handler → Response × Stores
  | healthz version => (Server.healthz version, s)
  | readyz version guard => (Server.readyz version guard x.probe, s)
  | authorize a =>
    let res := a.serveHTTP s.login.pending x.now x.raw (parseQuery r.url.rawQuery)
    (res.1, { s with login := { s.login with pending := res.2 } })
  | token t =>
    let res := t.serveHTTP P J s.login.codes s.seen x.exchange x.raw x.seed r.exchange
    (res.1, { login := { s.login with codes := res.2.1 }, seen := res.2.2 })
  | discovery doc => (published r.method (ascii "application/json") (metadataJSON doc), s)
  | jwks keys => (published r.method (ascii "application/jwk-set+json") (jwksJSON keys), s)
  | begin c =>
    let res := c.begin s.login.challenges x.now x.raw ((parseQuery r.url.rawQuery).get (ascii "rid"))
    (res.1, { s with login := { s.login with challenges := res.2 } })
  | finish c =>
    let res := c.finish (verifyPasskey x.rpc x.uuid) s.login x.finish r.finish
    (res.1, { s with login := res.2 })

/-- What the clock shows each time the handler reads it. -/
def readings (x : Surroundings) : Handler → List ℤ
  | authorize _ | begin _ => [x.now]
  | finish _ =>
    [x.finish.challenge, x.finish.pending, x.finish.authTime, x.finish.sweep, x.finish.code]
  | token _ => [x.exchange.redeem, x.exchange.proof, x.exchange.cache, x.exchange.issue]
  | _ => []

/-- The random bytes that become a request id, a challenge, a code or a token id. -/
def raw (x : Surroundings) : Handler → Option Bytes
  | authorize _ | begin _ | token _ => x.raw
  | finish _ => x.finish.raw
  | _ => none

end Handler

/-! ## The mux -/

structure Pattern where
  method : Bytes
  path : Bytes
  handler : Handler

namespace Config
variable (cfg : Config)

/-- The endpoints of the code flow, over one pair of stores. -/
def flow (signer : Tokens.Signer) (clients : Registry) : List Pattern :=
  [⟨get, ascii "/authorize", .authorize ⟨clients, cfg.loginURL⟩⟩,
    ⟨post, ascii "/token", .token ⟨signer, cfg.audience, cfg.dpop, cfg.issuer⟩⟩,
    ⟨get, ascii "/.well-known/openid-configuration", .discovery (.new cfg.issuer)⟩,
    ⟨get, ascii "/.well-known/jwks.json", .jwks (.new cfg.signingKeys)⟩] ++
  match cfg.login with
  | none => []
  | some c => [⟨get, ascii "/login/begin", .begin c⟩, ⟨post, ascii "/login/finish", .finish c⟩]

def patterns : List Pattern :=
  [⟨get, ascii "/healthz", .healthz cfg.version⟩,
    ⟨get, ascii "/readyz", .readyz cfg.version cfg.guard⟩] ++
  match cfg.signer, cfg.clients with
  | some signer, some clients => cfg.flow signer clients
  | _, _ => []

end Config

/-- What the mux finds for a request. -/
inductive Found
  | handler (h : Handler)
  | redirect (u : URL)
  | notAllowed (methods : List Bytes)
  | notFound

/-- The canonical path: rooted, without dot segments and doubled slashes. -/
def cleanPath (p : Bytes) : Bytes :=
  let p := if p.head? = some (ch '/') then p else ch '/' :: p
  let cleaned := Redirect.clean p
  if p.getLast? = some (ch '/') ∧ cleaned ≠ ascii "/" then cleaned ++ [ch '/'] else cleaned

/-- The segments of a path, which are compared unescaped. -/
def segments (path : Bytes) : List Bytes :=
  ((splitOn (ch '/') path).drop 1).map fun s => (unescape .pathSegment s).getD s

def Pattern.fits (p : Pattern) (path : Bytes) : Bool := segments p.path = segments path

/-- The pattern for a method and a path; the ones for `GET` stand for `HEAD` too. -/
def findPattern (ps : List Pattern) (method path : Bytes) : Option Pattern :=
  (ps.find? fun p => p.method = method && p.fits path).or
    (if method = ascii "HEAD" then ps.find? fun p => p.method = get && p.fits path else none)

/-- The methods there are patterns for. -/
def matchingMethods (ps : List Pattern) (path : Bytes) : List Bytes :=
  let ms := (ps.filter fun p => p.fits path).map Pattern.method
  let ms := if ms.contains get then ascii "HEAD" :: ms else ms
  ms.dedup.insertionSort (· ≤ ·)

def findHandler (ps : List Pattern) (r : Request) : Found :=
  let escaped := r.url.escapedPath
  let connect := r.method = ascii "CONNECT"
  let path := if connect then escaped else cleanPath escaped
  if ¬ connect ∧ path ≠ escaped then
    .redirect { URL.empty with path := path, rawQuery := r.url.rawQuery }
  else match findPattern ps r.method path with
    | some p => .handler p.handler
    | none =>
      match matchingMethods ps path with
      | [] => .notFound
      | ms => .notAllowed ms

/-- The answers of the mux itself. -/
def Found.refusal : Found → Response
  | .redirect u => ⟨301, [(ascii "Location", u.string)], .none⟩
  | .notAllowed ms =>
    .error [(ascii "Allow", (ascii ", ").intercalate ms)] (ascii "Method Not Allowed") 405
  | _ => .error [] (ascii "404 page not found") 404

/-- The defences that no handler may forget. -/
def securityHeaders : List (Bytes × Bytes) :=
  [(ascii "X-Frame-Options", ascii "DENY"), (ascii "X-Content-Type-Options", ascii "nosniff"),
    (ascii "Referrer-Policy", ascii "no-referrer"),
    (ascii "Strict-Transport-Security", ascii "max-age=31536000; includeSubDomains"),
    (ascii "Content-Security-Policy", ascii "default-src 'none'; frame-ancestors 'none'")]

/-- The endpoint that serves a request, if one does. The request `*` is for no path. -/
def Config.endpoint (cfg : Config) (r : Request) : Option Handler :=
  if r.url.path = ascii "*" then none
  else match findHandler cfg.patterns r with
    | .handler h => some h
    | _ => none

def Config.serveMux (cfg : Config) (P : Dpop.Platform) (J : Tokens.Codec) (s : Stores)
    (x : Surroundings) (r : Request) : Response × Stores :=
  if r.url.path = ascii "*" then (⟨400, [(ascii "Connection", ascii "close")], .none⟩, s)
  else match findHandler cfg.patterns r with
    | .handler h => h.serve P J s x r
    | found => (found.refusal, s)

/-- The gateway's handler: the security headers are set before the mux is asked. -/
def Config.serve (cfg : Config) (P : Dpop.Platform) (J : Tokens.Codec) (s : Stores)
    (x : Surroundings) (r : Request) : Response × Stores :=
  let res := cfg.serveMux P J s x r
  ({ res.1 with header := securityHeaders ++ res.1.header }, res.2)

end AiAuth.Server
