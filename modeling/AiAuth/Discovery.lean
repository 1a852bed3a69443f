import AiAuth.CodeFlow

/-!
# The discovery document

What the metadata document lists, against what the authorization and the token endpoint take.
Response type, challenge method, grant type and proof algorithm are checked where they are read;
the scope is carried from the query into the token as it came.
-/
namespace AiAuth.Dpop
open Library

/-- The header of a proof, as far as its text can be read. -/
def headerOf (P : Platform) (proofJWT : Bytes) : Option Header :=
  match splitOn (ch '.') proofJWT with
  | [part₀, _, _] => (Base64.decode part₀).bind P.unmarshalHeader
  | _ => none

/-- A proof that opens names the one algorithm, and opens under the key of its header. -/
theorem headerOf_of_openProof {P : Platform} {proofJWT : Bytes} {o : Opened}
    (h : openProof P proofJWT = .ok o) :
    ∃ header, headerOf P proofJWT = some header ∧ header.alg = ascii "ES256" ∧
      parseJWK P header.jwk = .ok o.key := by
  unfold openProof at h
  split at h
  next part₀ part₁ part₂ hparts =>
    have hread : headerOf P proofJWT = (Base64.decode part₀).bind P.unmarshalHeader := by
      rw [headerOf, hparts]
    split_ifs at h
    split at h
    · cases h
    next header hheader =>
      split_ifs at h with htyp halg
      split at h
      · cases h
      next pub hpub =>
        split at h
        next p sig _ _ =>
          split_ifs at h
          obtain rfl := Except.ok.inj h
          exact ⟨header, hread.trans hheader, not_not.mp halg, hpub⟩
        · cases h
  · cases h

end AiAuth.Dpop

namespace AiAuth.Oidc
open Library Library.Url

structure Metadata where
  issuer : Bytes
  authorizationEndpoint : Bytes
  tokenEndpoint : Bytes
  jwksURI : Bytes
  responseTypesSupported : List Bytes
  grantTypesSupported : List Bytes
  codeChallengeMethodsSupported : List Bytes
  idTokenSigningAlgValuesSupported : List Bytes
  tokenEndpointAuthMethodsSupported : List Bytes
  dpopSigningAlgValuesSupported : List Bytes
  scopesSupported : List Bytes
  subjectTypesSupported : List Bytes
  deriving DecidableEq

namespace Metadata

def new (issuer : Bytes) : Metadata where
  issuer := issuer
  authorizationEndpoint := issuer ++ ascii "/authorize"
  tokenEndpoint := issuer ++ ascii "/token"
  jwksURI := issuer ++ ascii "/.well-known/jwks.json"
  responseTypesSupported := [ascii "code"]
  grantTypesSupported := [ascii "authorization_code"]
  codeChallengeMethodsSupported := [ascii "S256"]
  idTokenSigningAlgValuesSupported := [ascii "ES256"]
  tokenEndpointAuthMethodsSupported := [ascii "none", ascii "private_key_jwt"]
  dpopSigningAlgValuesSupported := [ascii "ES256"]
  scopesSupported := [ascii "openid", ascii "profile", ascii "email"]
  subjectTypesSupported := [ascii "public"]

end Metadata

/-- The values of a scope parameter, which are separated by spaces. -/
def scopeValues (scope : Bytes) : List Bytes :=
  (splitOn (ch ' ') scope).filter fun v => !v.isEmpty

namespace Metadata
variable (m : Metadata)

/-- Every value of the scope is listed. -/
def ListsScope (scope : Bytes) : Prop := ∀ v ∈ scopeValues scope, v ∈ m.scopesSupported

/-- The document lists what an authorization request asks for. -/
structure ListsAuthz (params : Values) : Prop where
  responseType : params.get (ascii "response_type") ∈ m.responseTypesSupported
  challengeMethod : params.get (ascii "code_challenge_method") ∈ m.codeChallengeMethodsSupported
  scope : m.ListsScope (params.get (ascii "scope"))

/-- The document lists the grant type of a token request. -/
def ListsGrantType (r : TokenRequest) : Prop :=
  ∃ form, r.form = some form ∧ form.get (ascii "grant_type") ∈ m.grantTypesSupported

/-- The document lists the algorithm that the header of a proof names. -/
def ListsProof (P : Dpop.Platform) (jwt : Bytes) : Prop :=
  ∃ h, Dpop.headerOf P jwt = some h ∧ h.alg ∈ m.dpopSigningAlgValuesSupported

end Metadata

section checks
variable {issuer : Bytes}

/-- Past the rails there is one response type and one challenge method. -/
theorem validateAuthz_fixed {params : Values} {lookup : Bytes → Option Client} {req : AuthzRequest}
    (h : validateAuthz params lookup = .ok req) :
    params.get (ascii "response_type") = ascii "code" ∧
      params.get (ascii "code_challenge_method") = ascii "S256" ∧
      req.scope = params.get (ascii "scope") := by
  unfold validateAuthz at h
  split at h
  · cases h
  · dsimp only at h
    split_ifs at h with _ htype _ hmethod
    exact ⟨not_not.mp htype, not_not.mp hmethod, by rw [← Except.ok.inj h]⟩

theorem listsAuthz_iff {params : Values} {lookup : Bytes → Option Client} {req : AuthzRequest}
    (h : validateAuthz params lookup = .ok req) :
    (Metadata.new issuer).ListsAuthz params ↔
      (Metadata.new issuer).ListsScope (params.get (ascii "scope")) := by
  obtain ⟨htype, hmethod, -⟩ := validateAuthz_fixed h
  refine ⟨fun hl => hl.scope, fun hscope => ⟨?_, ?_, hscope⟩⟩
  · rw [htype]
    exact List.mem_singleton_self _
  · rw [hmethod]
    exact List.mem_singleton_self _

theorem listsGrantType_of_parse {r : TokenRequest} {f : ExchangeForm}
    (h : Token.parse r = .ok f) : (Metadata.new issuer).ListsGrantType r := by
  unfold Token.parse at h
  split_ifs at h
  split at h
  · cases h
  next form hform =>
    split_ifs at h with htype
    refine ⟨form, hform, ?_⟩
    rw [not_not.mp htype]
    exact List.mem_singleton_self _

theorem listsProof_of_confirm {t : Token} {P : Dpop.Platform} {seen : Dpop.ReplayCache}
    {proofAt admitAt : ℤ} {r : TokenRequest} {k : Option Tokens.Confirm} (ht : t.dpop = true)
    (h : (t.confirm P seen proofAt admitAt r).1 = .ok k) :
    (Metadata.new issuer).ListsProof P r.dpop := by
  obtain ⟨o, hopen, -⟩ := Token.confirm_ok ht (Prod.ext h rfl)
  obtain ⟨header, hheader, halg, -⟩ := Dpop.headerOf_of_openProof hopen
  refine ⟨header, hheader, ?_⟩
  rw [halg]
  exact List.mem_singleton_self _

end checks
end AiAuth.Oidc

namespace AiAuth.Flow
open Library Oidc Login CryptoService

section proofs
variable {w : Gateway}

/-- How a token request that is still under way came to its stage. -/
def Exchange.Came (w : Gateway) (tr : List Event) (k : ℕ) : Exchange → Prop
  | .redeemed req g => ∃ t f, .redeem k t req (some g) ∈ tr ∧ Token.parse req = .ok f
  | .confirmed g confirm => ∃ t req f seen proofAt admitAt, .redeem k t req (some g) ∈ tr ∧
    Token.parse req = .ok f ∧
    (w.token.confirm w.platform seen proofAt admitAt req).1 = .ok confirm
  | .ended => True

lemma Exchange.Came.append {tr : List Event} {k : ℕ} {st : Exchange} (h : st.Came w tr k)
    (post : List Event) : st.Came w (tr ++ post) k := by
  cases st with
  | redeemed req g =>
    obtain ⟨t, f, hredeem, hparse⟩ := h
    exact ⟨t, f, List.mem_append_left _ hredeem, hparse⟩
  | confirmed g confirm =>
    obtain ⟨t, req, f, seen, proofAt, admitAt, hredeem, hrest⟩ := h
    exact ⟨t, req, f, seen, proofAt, admitAt, List.mem_append_left _ hredeem, hrest⟩
  | ended => trivial

/-- A step moves at most one token request on. -/
lemma came_step {tr : List Event} {s s' : State} {e : Event} (hm : Moves w s e s')
    (h : ∀ k st, s.exchanges.get k = some st → st.Came w tr k) (k : ℕ) (st : Exchange)
    (hst : s'.exchanges.get k = some st) : st.Came w (tr ++ [e]) k := by
  have hset (k' : ℕ) (new : Exchange) (hnew : new.Came w (tr ++ [e]) k')
      (hget : (s.exchanges.set k' new).get k = some st) : st.Came w (tr ++ [e]) k := by
    rcases Dict.get_of_set hget with ⟨rfl, rfl⟩ | ⟨-, hget⟩
    · exact hnew
    · exact (h k st hget).append _
  cases hm with
  | @redeem k' t req hclock hnew =>
    refine hset k' _ ?_ hst
    cases hres : (w.redeem s.codes t req).1 with
    | error resp => trivial
    | ok g =>
      obtain ⟨f, _, hparse, _⟩ := Gateway.redeem_ok hres
      exact ⟨t, f, by simp [Except.toOption], hparse⟩
  | @confirm k' proofAt t req g hk hproof hclock =>
    refine hset k' _ ?_ hst
    obtain ⟨t', f, hredeem, hparse⟩ := h k' _ hk
    cases hres : (w.token.confirm w.platform s.seen proofAt t req).1 with
    | error resp => trivial
    | ok confirm =>
      exact ⟨t', req, f, s.seen, proofAt, t, List.mem_append_left _ hredeem, hparse, hres⟩
  | @mint k' _ _ _ _ _ _ _ _ => exact hset k' .ended trivial hst
  | _ => exact (h k st hst).append _

theorem came_run {registered : Credentials} {clock : ℤ} {tr : List Event} {s : State}
    (hr : Run (StepOf w.step) (.start clock registered) tr s) :
    ∀ k st, s.exchanges.get k = some st → st.Came w tr k :=
  hr.invariant (fun tr s => ∀ k st, s.exchanges.get k = some st → st.Came w tr k)
    (by simp [State.start]) fun _ _ _ _ _ hi hs => came_step (moves_of_step hs) hi

end proofs

/-- Token request `k` and the token that it ends in keep to the document. -/
def Issued (w : Gateway) (m : Metadata) (tr : List Event) (k : ℕ) (t : ℤ) (raw : Option Bytes)
    (seed token : Bytes) : Prop :=
  ∃ t' req g confirm, .redeem k t' req (some g) ∈ tr ∧
    w.mint t raw seed g confirm = some token ∧ m.ListsGrantType req ∧
    (w.token.dpop = true → m.ListsProof w.platform req.dpop) ∧ m.ListsScope g.scope

/-- The document lists whatever a run accepted and whatever it issued tokens for. -/
structure Kept (w : Gateway) (m : Metadata) (tr : List Event) : Prop where
  accepted : ∀ t raw params req, .authorize t (some raw) params ∈ tr →
    validateAuthz params w.authorize.clients.lookup = .ok req → m.ListsAuthz params
  issued : ∀ k t raw seed token, .mint k t raw seed (some token) ∈ tr →
    Issued w m tr k t raw seed token

/-- No request that passes the rails asks for a scope besides `openid`, `profile` and `email`. -/
def AsksKnownScopes (w : Gateway) (tr : List Event) : Prop :=
  ∀ t raw params req, .authorize t (some raw) params ∈ tr →
    validateAuthz params w.authorize.clients.lookup = .ok req →
    ∀ v ∈ scopeValues (params.get (ascii "scope")),
      v = ascii "openid" ∨ v = ascii "profile" ∨ v = ascii "email"

section kept
variable {w : Gateway} {issuer : Bytes}

lemma listsScope_iff {scope : Bytes} : (Metadata.new issuer).ListsScope scope ↔
    ∀ v ∈ scopeValues scope, v = ascii "openid" ∨ v = ascii "profile" ∨ v = ascii "email" := by
  simp [Metadata.ListsScope, Metadata.new]

/-- The scope of a grant is the scope parameter of a request that passed the rails. -/
lemma scope_of_confirmed {registered : Credentials} {tr : List Event} {s : State} {k : ℕ}
    {g : Grant} {confirm : Option Tokens.Confirm} (hi : Inv w registered tr s)
    (hk : s.exchanges.get k = some (.confirmed g confirm)) :
    ∃ t raw params req, .authorize t (some raw) params ∈ tr ∧
      validateAuthz params w.authorize.clients.lookup = .ok req ∧
      g.scope = params.get (ascii "scope") := by
  obtain ⟨code, _, _, _, _, _, _, _, _, _, n, hcoded⟩ := hi.exchanges k _ hk
  obtain ⟨_, cred, authz, authTime, _, _, _, _, _, hgranted, rfl⟩ := hcoded
  obtain ⟨-, -, e, he, t, raw, params, rfl, hvalid, -⟩ := hgranted
  exact ⟨t, raw, params, authz, he, hvalid, (validateAuthz_fixed hvalid).2.2⟩

/-- The scope of a token is the one of an accepted request, and the rest is checked on the way. -/
lemma issued_of_mint {registered : Credentials} {clock : ℤ} {tr : List Event} {s : State}
    (hr : Run (StepOf w.step) (.start clock registered) tr s) (hasks : AsksKnownScopes w tr)
    {k : ℕ} {t : ℤ} {raw : Option Bytes} {seed token : Bytes}
    (hmint : .mint k t raw seed (some token) ∈ tr) :
    Issued w (.new issuer) tr k t raw seed token := by
  obtain ⟨pre, post, rfl⟩ := List.append_of_mem hmint
  obtain ⟨s₁, s₂, hpre, hstep, -⟩ := hr.at_label pre post rfl
  generalize he : Event.mint k t raw seed (some token) = e at hstep
  cases moves_of_step hstep with
  | @mint k' t' raw' seed' g confirm hk _ _ =>
    obtain ⟨rfl, rfl, rfl, rfl, htoken⟩ := Event.mint.inj he
    obtain ⟨t₁, req, f, seen, proofAt, admitAt, hredeem, hparse, hconfirm⟩ := came_run hpre k _ hk
    refine ⟨t₁, req, g, confirm, List.mem_append_left _ hredeem, htoken.symm,
      listsGrantType_of_parse hparse, fun hdpop => listsProof_of_confirm hdpop hconfirm, ?_⟩
    obtain ⟨t₂, raw₂, params, authz, haccepted, hvalid, hscope⟩ :=
      scope_of_confirmed (inv_run hpre) hk
    rw [hscope]
    exact listsScope_iff.mpr (hasks t₂ raw₂ params authz (List.mem_append_left _ haccepted) hvalid)
  | _ => cases he

theorem kept_iff {registered : Credentials} {clock : ℤ} {tr : List Event} {s : State}
    (hr : Run (StepOf w.step) (.start clock registered) tr s) :
    Kept w (.new issuer) tr ↔ AsksKnownScopes w tr := by
  constructor
  · intro hkept t raw params req he hvalid
    exact listsScope_iff.mp (hkept.accepted t raw params req he hvalid).scope
  · intro hasks
    refine ⟨fun t raw params req he hvalid => ?_, fun k t raw seed token hmint =>
      issued_of_mint hr hasks hmint⟩
    exact (listsAuthz_iff hvalid).mpr (listsScope_iff.mpr (hasks t raw params req he hvalid))

end kept

theorem kept_iff_worked :
    Kept Worked.gateway (.new Worked.origin) Worked.history := by
  obtain ⟨s, hr⟩ := Run.exists_of_foldlM Worked.gateway.step
    (.start (Sessions.Worked.moment 0) Worked.registered) Worked.history (by decide +kernel)
  refine (kept_iff hr).mpr fun t raw params req he _ v hv => ?_
  obtain ⟨-, -, rfl⟩ : t = Sessions.Worked.moment 0 ∧ raw = Worked.pendingRaw 2 ∧
      params = Worked.params := by
    simpa [Worked.history, Worked.login, Worked.started, Worked.completed, Worked.accepted,
      Worked.exchanged, Worked.minted] using he
  have hvalues : scopeValues (Worked.params.get (ascii "scope")) = [ascii "openid"] := by
    decide +kernel
  rw [hvalues, List.mem_singleton] at hv
  exact .inl hv

/-- The rails let any scope through that is not empty. -/
theorem unlisted_scope_accepted :
    ¬ ∀ (w : Gateway) (issuer : Bytes) (registered : Credentials) (clock : ℤ) (tr : List Event)
      (s : State), Run (StepOf w.step) (.start clock registered) tr s →
      Kept w (.new issuer) tr := by
  intro h
  let params : Url.Values := Worked.params.set (ascii "scope") (ascii "admin")
  let tr : List Event :=
    [.authorize (Sessions.Worked.moment 0) (some (Worked.pendingRaw 0)) params]
  obtain ⟨s, hr⟩ := Run.exists_of_foldlM Worked.gateway.step
    (.start (Sessions.Worked.moment 0) Worked.registered) tr (by decide +kernel)
  have hkept := h Worked.gateway Worked.origin _ _ tr s hr
  have hscope := (hkept.accepted (Sessions.Worked.moment 0) (Worked.pendingRaw 0) params
    { Worked.authz with scope := ascii "admin" } (by simp [tr]) (by decide +kernel)).scope
  exact absurd (hscope (ascii "admin") (by decide +kernel)) (by decide +kernel)

end AiAuth.Flow
