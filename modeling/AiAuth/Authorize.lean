import AiAuth.Http
import AiAuth.Registry
import AiAuth.Library.Base64
import AiAuth.Library.Time

/-!
# The authorization endpoint

The rails every authorization request passes, the store that holds accepted
requests until the login completes, and the handler that ties them together.
-/
namespace AiAuth.Oidc
open Library Library.Url

inductive AuthzError
  | unknownClient
  | redirectMismatch
  | unsupportedType
  | pkceRequired
  | pkceMethod
  | pkceMalformed
  | scopeMissing
  deriving DecidableEq

def AuthzError.text : AuthzError → Bytes
  | unknownClient => ascii "unknown client"
  | redirectMismatch => ascii "redirect_uri does not exactly match a registered value"
  | unsupportedType => ascii "only response_type=code is supported"
  | pkceRequired => ascii "code_challenge is required"
  | pkceMethod => ascii "only code_challenge_method=S256 is supported"
  | pkceMalformed => ascii "code_challenge is not valid base64url"
  | scopeMissing => ascii "scope is required"

/-- A validated authorization request. -/
structure AuthzRequest where
  clientID : Bytes
  redirectURI : Bytes
  scope : Bytes
  state : Bytes
  codeChallenge : Bytes
  nonce : Bytes
  deriving DecidableEq

/-- The rails, in order: client, redirect, response type, PKCE, scope. -/
def validateAuthz (params : Values) (lookup : Bytes → Option Client) :
    Except AuthzError AuthzRequest :=
  match lookup (params.get (ascii "client_id")) with
  | none => .error .unknownClient
  | some client =>
    let redirect := params.get (ascii "redirect_uri")
    let challenge := params.get (ascii "code_challenge")
    let scope := params.get (ascii "scope")
    if !client.allowsRedirect redirect then .error .redirectMismatch
    else if params.get (ascii "response_type") ≠ ascii "code" then .error .unsupportedType
    else if challenge = [] then .error .pkceRequired
    else if params.get (ascii "code_challenge_method") ≠ ascii "S256" then .error .pkceMethod
    else if Base64.decode challenge = none then .error .pkceMalformed
    else if scope = [] then .error .scopeMissing
    else .ok
      { clientID := client.id
        redirectURI := redirect
        scope := scope
        state := params.get (ascii "state")
        codeChallenge := challenge
        nonce := params.get (ascii "nonce") }

/-- Every field of an accepted request is a parameter of the query. -/
theorem validateAuthz_fields {params : Values} {r : Registry} {req : AuthzRequest}
    (h : validateAuthz params r.lookup = .ok req) :
    req = ⟨params.get (ascii "client_id"), params.get (ascii "redirect_uri"),
      params.get (ascii "scope"), params.get (ascii "state"), params.get (ascii "code_challenge"),
      params.get (ascii "nonce")⟩ := by
  unfold validateAuthz at h
  split at h
  · cases h
  next client hc =>
    dsimp only at h
    split_ifs at h
    rw [← Except.ok.inj h, Registry.lookup_id hc]

inductive PKCEError
  | verifierLength
  | mismatch
  deriving DecidableEq

/-- The code verifier must hash to the challenge stored with the grant. -/
def verifyPKCE (sha256 : Bytes → Bytes) (verifier storedChallenge : Bytes) :
    Except PKCEError Unit :=
  if verifier.length < 43 ∨ 128 < verifier.length then .error .verifierLength
  else if Base64.encode (sha256 verifier) ≠ storedChallenge then .error .mismatch
  else .ok ()

theorem verifyPKCE_ok {sha256 : Bytes → Bytes} {verifier challenge : Bytes} {u : Unit}
    (h : verifyPKCE sha256 verifier challenge = .ok u) :
    Base64.encode (sha256 verifier) = challenge := by
  unfold verifyPKCE at h
  split_ifs at h with hlen hne
  exact not_not.mp hne

/-! ## Pending requests -/

def pendingTTL : ℤ := 10 * Time.minute

structure PendingEntry where
  req : AuthzRequest
  expiresAt : ℤ
  deriving DecidableEq

/-- Accepted requests between the authorization endpoint and the end of the login,
by the opaque id the browser carries. -/
structure PendingStore where
  requests : Dict Bytes PendingEntry

namespace PendingStore

def new : PendingStore := ⟨Dict.empty⟩

/-- Store a request under a fresh id; `raw` is what the random source answers, if it
does. Expired entries are swept first. -/
def put (s : PendingStore) (now : ℤ) (raw : Option Bytes) (req : AuthzRequest) :
    Option Bytes × PendingStore :=
  match raw with
  | none => (none, s)
  | some raw =>
    let id := Base64.encode raw
    (some id, ⟨(s.requests.retain fun _ e => !(e.expiresAt < now)).set id ⟨req, now + pendingTTL⟩⟩)

/-- Consume a request. The entry is removed whether or not it has expired. -/
def take (s : PendingStore) (now : ℤ) (id : Bytes) : Option AuthzRequest × PendingStore :=
  match s.requests.get id with
  | none => (none, s)
  | some e => (if e.expiresAt < now then none else some e.req, ⟨s.requests.remove id⟩)

/-- After a put, a pending request is the new one or was there before. -/
theorem get_of_put {s s' : PendingStore} {now : ℤ} {raw id rid : Bytes} {req : AuthzRequest}
    {e : PendingEntry} (h : s.put now (some raw) req = (some id, s'))
    (hget : s'.requests.get rid = some e) :
    (rid = Base64.encode raw ∧ e.req = req) ∨ s.requests.get rid = some e := by
  unfold put at h
  obtain ⟨-, rfl⟩ := Prod.mk.inj h
  rcases Dict.get_of_retain_set hget with ⟨hrid, rfl⟩ | hold
  · exact .inl ⟨hrid, rfl⟩
  · exact .inr hold

/-- A request that is taken was stored under the id. -/
theorem take_ok {s s' : PendingStore} {now : ℤ} {id : Bytes} {req : AuthzRequest}
    (h : s.take now id = (some req, s')) : ∃ e, s.requests.get id = some e ∧ e.req = req := by
  unfold take at h
  split at h
  · cases h
  next e he =>
    obtain ⟨hres, -⟩ := Prod.mk.inj h
    split_ifs at hres
    exact ⟨e, he, Option.some.inj hres⟩

/-- After a take there is no request under the id, and the others are as they were. -/
theorem get_take {s : PendingStore} {now : ℤ} {id : Bytes} (rid : Bytes) :
    (s.take now id).2.requests.get rid = if rid = id then none else s.requests.get rid := by
  unfold take
  split
  next h =>
    split_ifs with heq
    · exact heq ▸ h
    · rfl
  · exact Dict.get_remove _ _ _

/-- A put of another request sweeps out nothing that has not expired. -/
theorem get_put_other {s : PendingStore} {now : ℤ} {raw : Option Bytes} {rid : Bytes}
    (req : AuthzRequest) {e : PendingEntry} (h : s.requests.get rid = some e)
    (hexp : now ≤ e.expiresAt) (hne : ∀ b ∈ raw, Base64.encode b ≠ rid) :
    (s.put now raw req).2.requests.get rid = some e := by
  cases raw with
  | none => exact h
  | some b =>
    have hrid : rid ≠ Base64.encode b := fun heq => hne b rfl heq.symm
    refine (Dict.get_set_ne _ hrid _).trans ?_
    exact Dict.get_retain.mpr ⟨h, by simpa using hexp⟩

end PendingStore

/-! ## Redirects and the handler -/

/-- Append parameters to the query of a redirect target. -/
def redirectWith (redirectURI : Bytes) (set : Values → Values) : Option Bytes :=
  (Url.parse redirectURI).map fun u =>
    { u with rawQuery := (set (parseQuery u.rawQuery)).encode }.string

/-- Set a parameter unless its value is empty. -/
def setNonEmpty (v : Values) (key value : Bytes) : Values :=
  if value = [] then v else v.set key value

def redirectWithCode (redirectURI state code : Bytes) : Option Bytes :=
  redirectWith redirectURI fun q => setNonEmpty (q.set (ascii "code") code) (ascii "state") state

def redirectWithError (redirectURI state code description : Bytes) : Option Bytes :=
  redirectWith redirectURI fun q =>
    setNonEmpty (setNonEmpty (q.set (ascii "error") code) (ascii "error_description") description)
      (ascii "state") state

/-- The authorization endpoint's configuration. -/
structure Authorize where
  clients : Registry
  loginURL : Bytes

namespace Authorize

def noStore : List (Bytes × Bytes) := [(ascii "Cache-Control", ascii "no-store")]

/-- An unknown client or an unmatched redirect is shown to the user; every other
refusal travels back through the redirect. -/
def refuse (params : Values) (err : AuthzError) : Response :=
  if err = .unknownClient ∨ err = .redirectMismatch then
    .error noStore (ascii "invalid client or redirect_uri") 400
  else
    let code :=
      if err = .unsupportedType then ascii "unsupported_response_type"
      else ascii "invalid_request"
    match redirectWithError (params.get (ascii "redirect_uri")) (params.get (ascii "state")) code
        err.text with
    | none => .error noStore (ascii "invalid request") 400
    | some target => .found noStore target

/-- The redirect to the login page, which carries the pending id and nothing else. -/
def toLogin (a : Authorize) (id : Bytes) : Response :=
  match redirectWith a.loginURL fun q => q.set (ascii "rid") id with
  | none => .error [] (ascii "temporarily unavailable") 503
  | some target => .found noStore target

def serveHTTP (a : Authorize) (pending : PendingStore) (now : ℤ) (raw : Option Bytes)
    (params : Values) : Response × PendingStore :=
  match validateAuthz params a.clients.lookup with
  | .error err => (refuse params err, pending)
  | .ok req =>
    match pending.put now raw req with
    | (none, pending) => (.error [] (ascii "temporarily unavailable") 503, pending)
    | (some id, pending) => (a.toLogin id, pending)

/-- An authorization request sweeps out nothing that has not expired. -/
theorem get_serveHTTP {a : Authorize} {pending : PendingStore} {now : ℤ} {raw : Option Bytes}
    {params : Values} {rid : Bytes} {e : PendingEntry} (h : pending.requests.get rid = some e)
    (hexp : now ≤ e.expiresAt) (hne : ∀ b ∈ raw, Base64.encode b ≠ rid) :
    (a.serveHTTP pending now raw params).2.requests.get rid = some e := by
  unfold serveHTTP
  cases validateAuthz params a.clients.lookup with
  | error err => exact h
  | ok req =>
    have hput := PendingStore.get_put_other req h hexp hne
    cases raw with
    | none => exact hput
    | some b => exact hput

end Authorize
end AiAuth.Oidc
