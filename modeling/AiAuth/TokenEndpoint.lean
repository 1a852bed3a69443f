import AiAuth.Codes
import AiAuth.Authorize
import AiAuth.Dpop
import AiAuth.Http
import AiAuth.Tokens

/-!
# The token endpoint

A code is exchanged for an access token: the form is read, the code redeemed and its
verifier checked, the proof turned into a confirmation, and the token minted.
-/
namespace AiAuth.Oidc
open Library Library.Url

def accessTokenTTL : ℤ := 10 * Time.minute

/-- `form` is the parsed body, if it parses; `dpop` is the proof header. -/
structure TokenRequest where
  method : Bytes
  form : Option Values
  dpop : Bytes
  deriving DecidableEq

/-- The parameters of an exchange. -/
structure ExchangeForm where
  code : Bytes
  clientID : Bytes
  redirectURI : Bytes
  verifier : Bytes
  deriving DecidableEq

/-- The endpoint. `dpop` says whether a proof verifier is configured. -/
structure Token where
  signer : Tokens.Signer
  audience : Bytes
  dpop : Bool
  issuer : Bytes

/-- The clock as one exchange reads it. -/
structure TokenReadings where
  redeem : ℤ
  proof : ℤ
  cache : ℤ
  issue : ℤ
  deriving DecidableEq

namespace Token

def noCache : List (Bytes × Bytes) :=
  [(ascii "Content-Type", ascii "application/json"), (ascii "Cache-Control", ascii "no-store"),
    (ascii "Pragma", ascii "no-cache")]

def fail (status : ℕ) (code desc : Bytes) : Response :=
  ⟨status, noCache, .json (.strings ((ascii "error", code) ::
    if desc = [] then [] else [(ascii "error_description", desc)]))⟩

/-- The refusal that asks the client to come back with a proof. -/
def proofRequired : Response :=
  let r := fail 400 (ascii "invalid_dpop_proof") (ascii "a DPoP proof is required")
  { r with header := (ascii "WWW-Authenticate", ascii "DPoP algs=\"ES256\"") :: r.header }

def success (token scope : Bytes) : Response :=
  ⟨200, noCache, .json (.object ([(ascii "access_token", .string token),
    (ascii "token_type", .string (ascii "DPoP")), (ascii "expires_in", .number (ascii "600"))] ++
    if scope = [] then [] else [(ascii "scope", .string scope)]))⟩

def parse (r : TokenRequest) : Except Response ExchangeForm :=
  if r.method ≠ ascii "POST" then .error (fail 405 (ascii "invalid_request") (ascii "POST required"))
  else match r.form with
    | none => .error (fail 400 (ascii "invalid_request") (ascii "malformed form"))
    | some form =>
      if form.get (ascii "grant_type") ≠ ascii "authorization_code" then
        .error (fail 400 (ascii "unsupported_grant_type")
          (ascii "only authorization_code is supported"))
      else
        let f : ExchangeForm := ⟨form.get (ascii "code"), form.get (ascii "client_id"),
          form.get (ascii "redirect_uri"), form.get (ascii "code_verifier")⟩
        if f.code = [] ∨ f.clientID = [] ∨ f.redirectURI = [] ∨ f.verifier = [] then
          .error (fail 400 (ascii "invalid_request") (ascii "missing required parameter"))
        else .ok f

/-- Every failure of the code or of its verifier reports the same. -/
def invalidGrant : Response := fail 400 (ascii "invalid_grant") (ascii "authorization code is not valid")

/-- Redeem the code and check the verifier against its grant. -/
def redeem (C : Crypto) (codes : CodeStore) (now : ℤ) (f : ExchangeForm) :
    Except Response Grant × CodeStore :=
  match codes.redeem now f.code f.clientID f.redirectURI with
  | (.error _, codes) => (.error invalidGrant, codes)
  | (.ok grant, codes) =>
    match verifyPKCE C.sha256 f.verifier grant.codeChallenge with
    | .error _ => (.error invalidGrant, codes)
    | .ok () => (.ok grant, codes)

/-- What a proof presented at this endpoint must be bound to. -/
def expected (t : Token) (r : TokenRequest) : Dpop.Expected :=
  ⟨r.method, t.issuer ++ ascii "/token", [], []⟩

/-- The confirmation of the token to be, or none where no verifier is configured. -/
def confirm (t : Token) (P : Dpop.Platform) (seen : Dpop.ReplayCache) (proofAt admitAt : ℤ)
    (r : TokenRequest) : Except Response (Option Tokens.Confirm) × Dpop.ReplayCache :=
  if !t.dpop then (.ok none, seen)
  else if r.dpop = [] then (.error proofRequired, seen)
  else match Dpop.verify P seen proofAt admitAt r.dpop (t.expected r) with
    | (.error _, seen) =>
      (.error (fail 400 (ascii "invalid_dpop_proof") (ascii "proof is not valid")), seen)
    | (.ok proof, seen) => (.ok (some ⟨proof.thumbprint⟩), seen)

/-- The claims the endpoint asks the signer for. -/
def claims (t : Token) (g : Grant) (confirm : Option Tokens.Confirm) : Tokens.Claims :=
  ⟨[], g.subjectID, t.audience, g.tenantID, g.scope, 0, 0, 0, [], confirm⟩

def mint (t : Token) (C : Crypto) (J : Tokens.Codec) (now : ℤ) (raw : Option Bytes) (seed : Bytes)
    (g : Grant) (confirm : Option Tokens.Confirm) : Except Response Bytes :=
  match t.signer.issue C J now raw seed (t.claims g confirm) accessTokenTTL with
  | .error _ => .error (fail 500 (ascii "server_error") [])
  | .ok token => .ok token

/-- One exchange from start to end: the access token and its scope, or the refusal. -/
def exchange (t : Token) (P : Dpop.Platform) (J : Tokens.Codec) (codes : CodeStore)
    (seen : Dpop.ReplayCache) (clk : TokenReadings) (raw : Option Bytes) (seed : Bytes)
    (r : TokenRequest) : Except Response (Bytes × Bytes) × CodeStore × Dpop.ReplayCache :=
  match parse r with
  | .error resp => (.error resp, codes, seen)
  | .ok f =>
    match redeem P.toCrypto codes clk.redeem f with
    | (.error resp, codes) => (.error resp, codes, seen)
    | (.ok grant, codes) =>
      match t.confirm P seen clk.proof clk.cache r with
      | (.error resp, seen) => (.error resp, codes, seen)
      | (.ok confirm, seen) =>
        match t.mint P.toCrypto J clk.issue raw seed grant confirm with
        | .error resp => (.error resp, codes, seen)
        | .ok token => (.ok (token, grant.scope), codes, seen)

def serveHTTP (t : Token) (P : Dpop.Platform) (J : Tokens.Codec) (codes : CodeStore)
    (seen : Dpop.ReplayCache) (clk : TokenReadings) (raw : Option Bytes) (seed : Bytes)
    (r : TokenRequest) : Response × CodeStore × Dpop.ReplayCache :=
  match t.exchange P J codes seen clk raw seed r with
  | (.error resp, codes, seen) => (resp, codes, seen)
  | (.ok (token, scope), codes, seen) => (success token scope, codes, seen)

/-- A redeemed grant was stored under the code, and the form fits it. -/
theorem redeem_ok {C : Crypto} {codes codes' : CodeStore} {now : ℤ} {f : ExchangeForm} {g : Grant}
    (h : redeem C codes now f = (.ok g, codes')) :
    codes.redeem now f.code f.clientID f.redirectURI = (.ok g, codes') ∧
      Base64.encode (C.sha256 f.verifier) = g.codeChallenge := by
  unfold redeem at h
  split at h
  · cases h
  next grant codes'' hr =>
    split at h
    · cases h
    next hv =>
      obtain ⟨hg, rfl⟩ := Prod.mk.inj h
      obtain rfl := Except.ok.inj hg
      exact ⟨hr, verifyPKCE_ok hv⟩

theorem redeem_snd {C : Crypto} {codes : CodeStore} {now : ℤ} {f : ExchangeForm} :
    (redeem C codes now f).2 = (codes.redeem now f.code f.clientID f.redirectURI).2 := by
  unfold redeem
  split
  next h => rw [h]
  next h =>
    rw [h]
    dsimp only
    split <;> rfl

/-- With a verifier configured, a confirmation names the key of the proof. -/
theorem confirm_ok {t : Token} {P : Dpop.Platform} {seen seen' : Dpop.ReplayCache}
    {proofAt admitAt : ℤ} {r : TokenRequest} {k : Option Tokens.Confirm} (ht : t.dpop = true)
    (h : t.confirm P seen proofAt admitAt r = (.ok k, seen')) :
    ∃ o, Dpop.openProof P r.dpop = .ok o ∧ k = some ⟨Dpop.thumbprint P.toCrypto o.key⟩ := by
  unfold confirm at h
  rw [if_neg (by simp [ht])] at h
  split_ifs at h
  · cases h
  · split at h
    · cases h
    next proof seen'' hv =>
      obtain ⟨hk, rfl⟩ := Prod.mk.inj h
      obtain rfl := Except.ok.inj hk
      obtain ⟨o, ho, hthumb⟩ := Dpop.verify_ok hv
      exact ⟨o, (Dpop.inspect_ok ho).1, by rw [hthumb]⟩

/-- A minted token is the signed text of the stamped claims of a grant. -/
theorem mint_ok {t : Token} {C : Crypto} {J : Tokens.Codec} {now : ℤ} {raw : Option Bytes}
    {seed token : Bytes} {g : Grant} {k : Option Tokens.Confirm}
    (h : t.mint C J now raw seed g k = .ok token) :
    ∃ jti sig, raw.map Base64.encode = some jti ∧ token = Jws.compact
      (t.signer.signing J (t.signer.stamp now accessTokenTTL jti (t.claims g k))) sig := by
  unfold mint at h
  split at h
  · cases h
  next token' hi =>
    obtain rfl := Except.ok.inj h
    obtain ⟨jti, sig, hjti, htok⟩ := Tokens.Signer.issue_ok hi
    exact ⟨jti, sig, by simpa [Tokens.Signer.tokenID, claims] using hjti, htok⟩

/-- The stages of an exchange that ends in a token. -/
theorem exchange_ok {t : Token} {P : Dpop.Platform} {J : Tokens.Codec} {codes codes' : CodeStore}
    {seen seen' : Dpop.ReplayCache} {clk : TokenReadings} {raw : Option Bytes}
    {seed token scope : Bytes}
    {r : TokenRequest}
    (h : t.exchange P J codes seen clk raw seed r = (.ok (token, scope), codes', seen')) :
    ∃ f g k, parse r = .ok f ∧ redeem P.toCrypto codes clk.redeem f = (.ok g, codes') ∧
      t.confirm P seen clk.proof clk.cache r = (.ok k, seen') ∧
      t.mint P.toCrypto J clk.issue raw seed g k = .ok token ∧ scope = g.scope := by
  unfold exchange at h
  split at h
  · cases h
  next f hf =>
    split at h
    · cases h
    next g codes'' hg =>
      split at h
      · cases h
      next k seen'' hk =>
        split at h
        · cases h
        next tok htok =>
          obtain ⟨hout, rest⟩ := Prod.mk.inj h
          obtain ⟨rfl, rfl⟩ := Prod.mk.inj rest
          obtain ⟨rfl, rfl⟩ := Prod.mk.inj (Except.ok.inj hout)
          exact ⟨f, g, k, hf, hg, hk, htok, rfl⟩

end Token
end AiAuth.Oidc
