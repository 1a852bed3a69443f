import AiAuth.LoginProvenance
import AiAuth.SenderConstraint
import AiAuth.SingleUse

/-!
# One login, one token

Every access token of a run goes back to a finish request of its own, whose assertion the Guard
verified, and to an authorization request of its own, accepted under that request's id.
-/
namespace AiAuth.Flow
open Library Oidc Login CryptoService

/-- The token is signed over claims with this subject, tenant and scope. -/
def Minted (w : Gateway) (token subject tenantID scope : Bytes) : Prop :=
  ∃ c sig, token = Jws.compact (w.token.signer.signing w.codec c) sig ∧ c.subject = subject ∧
    c.tenantID = tenantID ∧ c.scope = scope

/-- The requests that a token goes back to: finish request `n` with what it carried, and the
form of the token request. -/
structure Chain where
  n : ℕ
  authz : AuthzRequest
  finish : FinishRequest
  challenge : Bytes
  cred : Credential
  form : ExchangeForm

/-- The chain is in the trace, and its parts fit together and fit the token. -/
structure Chain.Backs (c : Chain) (w : Gateway) (registered : Credentials) (tr : List Event)
    (k : ℕ) (token : Bytes) : Prop where
  accepted : ∃ e ∈ tr, Accepted w c.finish.rid c.authz e
  took : Took tr c.n c.finish c.challenge
  alone : ∀ n t body, .finish n t body (some c.challenge) ∈ tr → n = c.n
  verified : ∃ assertion uuid resp,
    .verify c.n c.cred.id uuid (w.ceremony.ask c.challenge c.cred assertion) (some resp) ∈ tr ∧
      resp.verdict = verdictVerified
  registered : Registered registered c.finish.credentialID c.cred
  taken : ∃ t, .take c.n t c.finish.rid (some c.authz) ∈ tr
  issued : ∃ authTime sweepAt t raw, Base64.encode raw = c.form.code ∧
    .issue c.n authTime sweepAt t (some raw) (Ceremony.grant c.cred c.authz authTime) ∈ tr
  redeemed : ∃ t req g, .redeem k t req (some g) ∈ tr ∧ Token.parse req = .ok c.form
  client : c.form.clientID = c.authz.clientID
  redirect : c.form.redirectURI = c.authz.redirectURI
  pkce : Base64.encode (w.platform.sha256 c.form.verifier) = c.authz.codeChallenge
  minted : Minted w token c.cred.subjectID c.cred.tenantID c.authz.scope

/-- Token request `k` ends in a token. -/
def Mints (tr : List Event) (k : ℕ) : Prop :=
  ∃ t raw seed token, .mint k t raw seed (some token) ∈ tr

section chain
variable {w : Gateway} {registered : Credentials} {clock : ℤ} {tr : List Event} {s : State}
  {k k' : ℕ} {token token' : Bytes} {c c' : Chain}

lemma minted_of_mint {t : ℤ} {raw : Option Bytes} {seed : Bytes} {g : Grant}
    {confirm : Option Tokens.Confirm} (h : w.mint t raw seed g confirm = some token) :
    Minted w token g.subjectID g.tenantID g.scope := by
  unfold Gateway.mint at h
  cases hm : w.token.mint w.platform.toCrypto w.codec t raw seed g confirm with
  | error resp =>
    rw [hm] at h
    cases h
  | ok token' =>
    rw [hm] at h
    obtain rfl := Option.some.inj h
    obtain ⟨jti, sig, -, htoken⟩ := Token.mint_ok hm
    exact ⟨_, sig, htoken, rfl, rfl, rfl⟩

/-- A token that is minted has a chain behind it. -/
lemma exists_chain (hr : Run (StepOf w.step) (.start clock registered) tr s) {t : ℤ}
    {raw : Option Bytes} {seed : Bytes} (hmint : .mint k t raw seed (some token) ∈ tr) :
    ∃ c : Chain, c.Backs w registered tr k token := by
  obtain ⟨pre, post, rfl⟩ := List.append_of_mem hmint
  obtain ⟨s₁, s₂, hpre, hstep, -⟩ := hr.at_label pre post rfl
  have hinv := inv_run hpre
  have hredeemed : ∃ code g confirm, Redeemed w registered pre k code g ∧
      w.mint t raw seed g confirm = some token := by
    generalize he : Event.mint k t raw seed (some token) = e at hstep
    cases moves_of_step hstep with
    | @mint k' t' raw' seed' g confirm hk _ _ =>
      obtain ⟨rfl, rfl, rfl, rfl, htoken⟩ := Event.mint.inj he
      obtain ⟨code, hredeemed⟩ := hinv.exchanges k _ hk
      exact ⟨code, g, confirm, hredeemed, htoken.symm⟩
    | _ => cases he
  obtain ⟨code, g, confirm, hredeemed, htoken⟩ := hredeemed
  obtain ⟨t₁, req, f, hredeem, hparse, rfl, hclient, hredirect, hpkce, n, hcoded⟩ :=
    hredeemed.append (.mint k t raw seed (some token) :: post)
  obtain ⟨finish, cred, authz, authTime, sweepAt, t₂, raw₂, hissue, hcode, hgranted, rfl⟩ := hcoded
  obtain ⟨⟨challenge, assertion, uuid, resp, htook, hverify, hverdict, hreg⟩, htake, haccepted⟩ :=
    hgranted
  have halone : ∀ n' t' body,
      .finish n' t' body (some challenge) ∈ pre ++ .mint k t raw seed (some token) :: post →
        n' = n := by
    intro n' t' body hmem
    obtain ⟨pre', post', t₃, -, heq, -⟩ := htook
    have hother : .finish n t₃ (some finish) (some challenge) ∈
        pre ++ .mint k t raw seed (some token) :: post := heq ▸ by simp
    have hsame := eq_of_nodup_filterMap (once_run hr).challenge.once.nodup hmem hother rfl rfl
    exact (Event.finish.inj hsame).1
  exact ⟨⟨n, authz, finish, challenge, cred, f⟩, haccepted, htook, halone,
    ⟨assertion, uuid, resp, hverify, hverdict⟩, hreg, htake,
    ⟨authTime, sweepAt, t₂, raw₂, hcode, hissue⟩, ⟨t₁, req, _, hredeem, hparse⟩, hclient.symm,
    hredirect.symm, hpkce, minted_of_mint htoken⟩

/-- One finish request backs one token request: it is given one code, and that is redeemed
once. -/
lemma Chain.Backs.finish_inj (hr : Run (StepOf w.step) (.start clock registered) tr s)
    (h : c.Backs w registered tr k token) (h' : c'.Backs w registered tr k' token')
    (hn : c.n = c'.n) : k = k' := by
  have hones := once_run hr
  obtain ⟨authTime, sweepAt, t, raw, hcode, hissue⟩ := h.issued
  obtain ⟨authTime', sweepAt', t', raw', hcode', hissue'⟩ := h'.issued
  have hraw : raw = raw' := by
    have hsame := eq_of_nodup_filterMap hones.issue.nodup hissue hissue' rfl (by rw [hn]; rfl)
    exact Option.some.inj (Event.issue.inj hsame).2.2.2.2.1
  obtain ⟨t₁, req, g, hredeem, hparse⟩ := h.redeemed
  obtain ⟨t₁', req', g', hredeem', hparse'⟩ := h'.redeemed
  have hkey : Event.redeemedCode (.redeem k t₁ req (some g)) = some c.form.code := by
    simp [Event.redeemedCode, hparse, Except.toOption]
  have hkey' : Event.redeemedCode (.redeem k' t₁' req' (some g')) = some c.form.code := by
    simp [Event.redeemedCode, hparse', Except.toOption, ← hcode, ← hcode', hraw]
  have hsame := eq_of_nodup_filterMap hones.code.nodup hredeem hredeem' hkey hkey'
  exact (Event.redeem.inj hsame).1

/-- One authorization request backs one finish request: its id is taken once. -/
lemma Chain.Backs.rid_inj (hr : Run (StepOf w.step) (.start clock registered) tr s)
    (h : c.Backs w registered tr k token) (h' : c'.Backs w registered tr k' token')
    (hrid : c.finish.rid = c'.finish.rid) : c.n = c'.n := by
  obtain ⟨t, htake⟩ := h.taken
  obtain ⟨t', htake'⟩ := h'.taken
  have hsame := eq_of_nodup_filterMap (once_run hr).rid.nodup htake htake' rfl (by rw [hrid]; rfl)
  exact (Event.take.inj hsame).1

end chain

/-- The tokens of a run go back, each to its own, to finish requests that the Guard verified and
to authorization requests that were accepted. -/
theorem code_flow {w : Gateway} {registered : Credentials} {clock : ℤ} {tr : List Event} {s : State}
    (hr : Run (StepOf w.step) (.start clock registered) tr s) :
    (tr.filterMap Event.mintedBy).Nodup ∧
    ∃ chain : { k // Mints tr k } → Chain,
      Function.Injective (fun k => (chain k).n) ∧
      Function.Injective (fun k => (chain k).finish.rid) ∧
      ∀ k t raw seed token (h : .mint k t raw seed (some token) ∈ tr),
        (chain ⟨k, t, raw, seed, token, h⟩).Backs w registered tr k token := by
  have hnodup := (once_run hr).mint.nodup
  have hex : ∀ k : { k // Mints tr k }, ∃ c : Chain, ∀ t raw seed token,
      .mint k.1 t raw seed (some token) ∈ tr → c.Backs w registered tr k.1 token := by
    rintro ⟨k, t, raw, seed, token, hmint⟩
    obtain ⟨c, hc⟩ := exists_chain hr hmint
    refine ⟨c, fun t' raw' seed' token' hmint' => ?_⟩
    have hsame := eq_of_nodup_filterMap hnodup hmint hmint' rfl rfl
    rw [← Option.some.inj (Event.mint.inj hsame).2.2.2.2]
    exact hc
  choose chain hchain using hex
  have hbacks : ∀ k : { k // Mints tr k }, ∃ token, (chain k).Backs w registered tr k.1 token := by
    rintro ⟨k, t, raw, seed, token, hmint⟩
    exact ⟨token, hchain _ t raw seed token hmint⟩
  refine ⟨hnodup, chain, fun k k' hn => ?_, fun k k' hrid => ?_, fun k t raw seed token hmint =>
    hchain _ t raw seed token hmint⟩
  · obtain ⟨token, h⟩ := hbacks k
    obtain ⟨token', h'⟩ := hbacks k'
    exact Subtype.ext (h.finish_inj hr h' hn)
  · obtain ⟨token, h⟩ := hbacks k
    obtain ⟨token', h'⟩ := hbacks k'
    exact Subtype.ext (h.finish_inj hr h' (h.rid_inj hr h' hrid))

namespace Worked
open Sessions.Worked (moment)

def origin : Bytes := ascii "https://auth.example"

def rpID : Bytes := ascii "auth.example"

def clients : Registry :=
  ((Registry.new.register ⟨ascii "app", [ascii "https://app.example/cb"]⟩).toOption).getD .new

def gateway : Gateway where
  authorize := ⟨clients, ascii "https://auth.example/login"⟩
  ceremony := ⟨rpID, origin⟩
  token := Gateway.Worked.deployment.endpoint
  platform := Sessions.Worked.platform
  codec := Sessions.Worked.codec

def params : Url.Values :=
  [(ascii "client_id", ascii "app"), (ascii "redirect_uri", ascii "https://app.example/cb"),
    (ascii "response_type", ascii "code"), (ascii "code_challenge", Sessions.Worked.codeChallenge),
    (ascii "code_challenge_method", ascii "S256"), (ascii "scope", ascii "openid"),
    (ascii "state", ascii "s1")]

def authz : AuthzRequest :=
  ⟨ascii "app", ascii "https://app.example/cb", ascii "openid", ascii "s1",
    Sessions.Worked.codeChallenge, []⟩

/-- The key of the passkey as an uncompressed point. -/
def publicKey : Bytes :=
  4 :: bigEndian 32 P256.doubled.x ++ bigEndian 32 P256.doubled.y

def passkey : Credential := ⟨ascii "cred", ascii "t1", ascii "u1", publicKey, 4⟩

def registered : Credentials := Credentials.new.add passkey

def pendingRaw (n : ℕ) : Bytes := List.replicate 32 (UInt8.ofNat (16 + n))

def rid (n : ℕ) : Bytes := Base64.encode (pendingRaw n)

def challenge (n : ℕ) : Bytes := List.replicate 32 (UInt8.ofNat n)

def clientData (n : ℕ) : Bytes :=
  ascii "\x7b\"type\":\"webauthn.get\",\"challenge\":\"" ++ Base64.encode (challenge n) ++
    ascii "\",\"origin\":\"" ++ origin ++ ascii "\"\x7d"

def rpDigest : Bytes :=
  bigEndian 32 0xc8b0ad48cf39a0739e16587c4bab270870a4e080d139785fadf2c9b306e4cc43

def authData (count : ℕ) : Bytes := rpDigest ++ 1 :: bigEndian 4 count

/-- The authenticator and its copy report six, five and five. -/
def counter (n : ℕ) : ℕ := if n = 1 then 6 else 5

/-- The signatures in DER. -/
def signature : ℕ → Bytes
  | 1 => bigEndian 38 0x30460221008a146327c0f1d46e8adb0af4147494f9e053ab672687dfc3294ef144237b01b50221 ++
    bigEndian 34 0x00add60c0a9411547e5c9d796921048270787a58c248e2a0b597f7b7d98697ddb1
  | 2 => bigEndian 36 0x304402206c12533ca19303d368a86397d52b603cdd6082e7bacda4b032ba5df684685f36 ++
    bigEndian 34 0x022053e95eeca58f3541d49109535c8455c8588aaebb7efbdc2bc35b209bc8513792
  | _ => bigEndian 36 0x304402205e1e8de598f6743b34678bd6d653fe3a3bfcc02c56e3b98229d023ca0bc6b391 ++
    bigEndian 34 0x02200a33ed43abadc8e8905e0af23455b719d08dc6ddd55033077b10d01620a75113

def assertion (n : ℕ) : Assertion := ⟨authData (counter n), clientData n, signature n⟩

def body (n : ℕ) : FinishRequest where
  rid := rid n
  credentialID := ascii "cred"
  authenticatorData := Base64.encode (assertion n).authenticatorData
  clientDataJSON := Base64.encode (assertion n).clientDataJSON
  signature := Base64.encode (assertion n).signature

def uuid : Bytes := ascii "0f4c2b52-8c1f-4d2e-9a55-7b1de1c0a6f1"

/-- A request up to the lookup of the passkey. -/
def started (t : ℤ) (n : ℕ) : List Event :=
  [.authorize t (some (pendingRaw n)) params, .begin t (some (challenge n)) (rid n),
    .finish n t (some (body n)) (some (challenge n)), .lookup n]

/-- The Guard accepts; the stored counter was `stored` when it was read. -/
def accepted (n stored : ℕ) : Event :=
  .verify n (ascii "cred") uuid
    (gateway.ceremony.ask (challenge n) { passkey with signCount := stored } (assertion n))
    (some ⟨verdictVerified, [], counter n⟩)

def grant (t : ℤ) : Grant := { Gateway.Worked.grant with authTime := t }

/-- The rest of the request, up to the code. -/
def completed (t : ℤ) (n : ℕ) (code : Bytes) : List Event :=
  [.take n t (rid n) (some authz), .issue n t t t (some code) (grant t)]

def login (t : ℤ) : List Event :=
  started t 2 ++ accepted 2 4 :: .update 2 :: completed t 2 Gateway.Worked.codeRaw

/-- The exchange of the code of a login at `t`, up to the token. -/
def exchanged (t : ℤ) : List Event :=
  [.redeem 0 (moment 0) Gateway.Worked.exchange (some (grant t)), .confirm 0 (moment 0) (moment 0)]

def minted : Event :=
  .mint 0 (moment 0) (some Sessions.Worked.jtiRaw) [] (some Sessions.Worked.token)

def history : List Event := login (moment 0) ++ exchanged (moment 0) ++ [minted]

end Worked

theorem code_flow_worked : ∃ c : Chain,
    c.Backs Worked.gateway Worked.registered Worked.history 0 Sessions.Worked.token := by
  obtain ⟨s, hr⟩ := Run.exists_of_foldlM Worked.gateway.step
    (.start (Sessions.Worked.moment 0) Worked.registered) Worked.history (by decide +kernel)
  obtain ⟨-, chain, -, -, hbacks⟩ := code_flow hr
  exact ⟨_, hbacks 0 (Sessions.Worked.moment 0) (some Sessions.Worked.jtiRaw) []
    Sessions.Worked.token (by simp [Worked.history, Worked.minted])⟩

end AiAuth.Flow
