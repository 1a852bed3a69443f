import AiAuth.CryptoFailures
import AiAuth.GuardRuns
import AiAuth.ServerFlow

/-!
# What the processes start with

Both processes read their environment, and exit where it is incomplete. A Guard that has started
never fails inside. The gateway is put together without a login ceremony, so nobody can log in to
it.
-/
namespace AiAuth.CryptoService
open Library Aead Limits

/-! ## The Guard -/

inductive Profile
  | strict
  | balanced
  | legacy
  | regulated
  deriving DecidableEq

namespace Profile

def asStr : Profile → Bytes
  | strict => ascii "strict"
  | balanced => ascii "balanced"
  | legacy => ascii "legacy"
  | regulated => ascii "regulated"

/-- A name that is not known is an error, never a weaker profile. -/
def parse (s : Bytes) : Option Profile :=
  let name := Url.toLower (trimSpace s)
  if name = ascii "strict" then some strict
  else if name = ascii "balanced" then some balanced
  else if name = ascii "legacy" then some legacy
  else if name = ascii "regulated" then some regulated
  else none

/-- A name is the one of its profile, but for its case and the space around it. -/
theorem parse_iff {s : Bytes} {p : Profile} :
    parse s = some p ↔ Url.toLower (trimSpace s) = p.asStr := by
  unfold parse
  constructor
  · intro h
    dsimp only at h
    split_ifs at h with h₁ h₂ h₃ h₄ <;> obtain rfl := Option.some.inj h <;> assumption
  · intro h
    cases p <;> rw [h] <;> decide

end Profile

/-- What a provider says about itself. -/
structure ProviderAttestation where
  moduleName : Bytes
  fips : Bool

def SoftwareProvider.attestation (_p : SoftwareProvider) : ProviderAttestation :=
  ⟨ascii "RustCrypto (hmac, sha2)", false⟩

/-- The module a profile does not run on. -/
structure StartupRefusal where
  profile : Bytes
  moduleName : Bytes

/-- The gate between configuration and service. -/
def check (profile : Profile) (attestation : ProviderAttestation) : Except StartupRefusal Unit :=
  if profile = .regulated && !attestation.fips then
    .error ⟨profile.asStr, attestation.moduleName⟩
  else .ok ()

/-- What the process finds: variables, files, whether a text is a socket address, and whether
certificate, key and authority make a TLS configuration. -/
structure Environment where
  var : Bytes → Option Bytes
  file : Bytes → Option Bytes
  isAddr : Bytes → Bool
  isTls : Bytes → Bytes → Bytes → Bool

namespace Environment
variable (env : Environment)

def requiredEnv (name : Bytes) : Option Bytes := (env.var name).filter fun v => v ≠ []

/-- The file that a variable names. -/
def mustRead (name : Bytes) : Option Bytes := (env.requiredEnv name).bind env.file

/-- The default profile is the strict one. -/
def profile : Option Profile :=
  match env.var (ascii "AIAUTH_PROFILE") with
  | some v => Profile.parse v
  | none => some .strict

end Environment

/-- What the process serves. -/
structure Launch where
  profile : Profile
  guard : Guard

def indexKey : KeyHandle := ⟨ascii "blind-index-v1"⟩

def kek : KeyHandle := ⟨ascii "kek-v1"⟩

/-- The key material of a development. -/
def developmentKeys : SoftwareProvider :=
  (SoftwareProvider.new.withKey indexKey (List.replicate 32 0x5a)).withKey kek
    (List.replicate 32 0xa5)

/-- The process starts, or exits with an error. -/
def launch (env : Environment) : Option Launch := do
  let addr := (env.var (ascii "CRYPTO_ADDR")).getD (ascii "0.0.0.0:9090")
  guard (env.isAddr addr)
  let ca ← env.mustRead (ascii "CRYPTO_CA_FILE")
  let cert ← env.mustRead (ascii "CRYPTO_CERT_FILE")
  let key ← env.mustRead (ascii "CRYPTO_KEY_FILE")
  let profile ← env.profile
  guard (check profile developmentKeys.attestation).isOk
  guard (env.isTls cert key ca)
  return ⟨profile, .new developmentKeys indexKey kek⟩

/-- A process that has started runs no profile that wants a validated module. -/
lemma launch_some {env : Environment} {l : Launch} (h : launch env = some l) :
    l.profile ≠ .regulated ∧ l.guard = .new developmentKeys indexKey kek := by
  simp only [launch, Option.bind_eq_bind, Option.bind_eq_some_iff, Option.pure_def,
    Option.some.injEq] at h
  obtain ⟨-, -, ca, -, cert, -, key, -, profile, -, _, hcheck, -, -, rfl⟩ := h
  refine ⟨?_, rfl⟩
  rintro rfl
  cases hcheck

/-- No plaintext is longer than the cipher takes. -/
def Call.short : Call → Bool
  | .encryptField req => req.plaintext.length ≤ maxMessage
  | _ => true

/-- What a call can be refused for once it has passed the gate and the budget. -/
def Call.flaw : Call → Option Status
  | .verifyAssertion req =>
    if req.credential.isSome && req.assertion.isSome then none
    else some ⟨.invalidArgument, ascii "credential and assertion are required"⟩
  | .encryptField req => if req.wrappedDek = [] then none else some denied
  | .decryptField _ => some denied
  | .blindIndex _ => none

lemma flaw_code {call : Call} {e : Status} (h : call.flaw = some e) : e.code ≠ .internal := by
  unfold Call.flaw at h
  split at h
  · split_ifs at h
    exact Option.some.inj h ▸ Code.noConfusion
  · split_ifs at h
    exact Option.some.inj h ▸ Code.noConfusion
  · exact Option.some.inj h ▸ Code.noConfusion
  · cases h

section launched
variable {P : Webauthn.Platform} {C : Cipher} {hmac : Bytes → Bytes → Index} {g : Guard}
  {p : SoftwareProvider} {handle : KeyHandle} {key a t box plaintext indexMaterial : Bytes}
  {w w' : World} {r : Draws} {nonce : Nonce} {call : Call} {i : Incoming} {s : State} {e : Status}

/-- What was sealed last opens at once. -/
lemma aeadOpen_sealed (h : aeadSeal C w nonce key a plaintext = (.ok box, w')) :
    aeadOpen w' key a box = .ok plaintext := by
  obtain ⟨ct, hct, hkey, rfl, rfl⟩ := aeadSeal_ok h
  have hpos : 0 < ct.length := List.length_pos_of_ne_nil hct
  have hlong : ¬ (nonce.1 ++ ct).length ≤ nonceLen := by
    rw [List.length_append, nonce.2]
    omega
  have htake : (nonce.1 ++ ct).take nonceLen = nonce.1 := List.take_left' nonce.2
  have hdrop : (nonce.1 ++ ct).drop nonceLen = ct := List.drop_left' nonce.2
  show aeadOpen _ key a (nonce.1 ++ ct) = .ok plaintext
  unfold aeadOpen
  rw [if_neg hlong, if_neg (not_not.mpr hkey), htake, hdrop]
  simp [decrypt, World.record]

/-- A key that was wrapped last seals fields. -/
lemma encryptField_wrapped {d : Dek} {n : Nonce} {e : ProviderError} (hC : Seals C)
    (hkek : p.keys.get handle = some key)
    (hwrap : p.generateWrappedDek C w d nonce handle t = (.ok box, w'))
    (hmsg : plaintext.length ≤ maxMessage) :
    (p.encryptField C w' n handle t box plaintext).1 ≠ .error e := by
  unfold SoftwareProvider.generateWrappedDek SoftwareProvider.getKek at hwrap
  rw [hkek] at hwrap
  have hopen : p.unwrapDek w' handle t box = .ok d.1 := by
    rw [unwrapDek_eq hkek]
    exact aeadOpen_sealed hwrap
  unfold SoftwareProvider.encryptField
  rw [hopen]
  obtain ⟨sealed, hsealed⟩ := @aeadSeal_seals C w' n d.1 (aad domainField t) plaintext hC d.2 hmsg
  intro herror
  rw [hsealed] at herror
  cases herror

lemma keysOnly_sealRow {req : EncryptFieldRequest} (h : KeysOnly w) :
    KeysOnly (g.sealRow C w r req).2 := by
  unfold Guard.sealRow Guard.sealUnder
  cases hrow : g.rowKey C w r (tenantOf req.context) req.wrappedDek with
  | mk res w' =>
    have hrow' := h.rowKey hrow
    cases res with
    | error e => exact hrow'
    | ok wrapped => exact hrow'.encryptField rfl

/-- Whatever is called, only keys are wrapped. -/
lemma keysOnly_serve (h : KeysOnly s.world) : KeysOnly (g.serve P C hmac s i).2.world := by
  cases hgate : i.gate with
  | error e => exact serve_rejected hgate ▸ h
  | ok u =>
    cases hallow :
        (g.limiter.allow s.tables i.moment.now i.moment.order i.tenantID i.call.op).1 with
    | false => exact serve_limited hgate hallow ▸ h
    | true =>
      rw [serve_done hgate hallow]
      show KeysOnly (g.work P C hmac s.world i.draws i.call).2
      cases i.call with
      | encryptField req => exact keysOnly_sealRow h
      | _ => exact h

/-- A row that brings no key is always sealed. -/
lemma sealRow_error {req : EncryptFieldRequest} (hC : Seals C)
    (hkek : g.provider.keys.get g.kek = some key) (hlen : key.length = keyLen) (h : KeysOnly w)
    (hmsg : req.plaintext.length ≤ maxMessage) (he : (g.sealRow C w r req).1 = .error e) :
    req.wrappedDek ≠ [] ∧ e = denied := by
  unfold Guard.sealRow Guard.sealUnder at he
  cases hrow : g.rowKey C w r (tenantOf req.context) req.wrappedDek with
  | mk res w' =>
    rw [hrow] at he
    cases res with
    | error e' => exact absurd hrow (rowKey_seals hC hkek hlen)
    | ok wrapped =>
      dsimp only at he
      cases hfield : (g.provider.encryptField C w' r.fieldNonce g.kek (tenantOf req.context) wrapped
          req.plaintext).1 with
      | ok ct =>
        rw [hfield] at he
        cases he
      | error e' =>
        rw [hfield] at he
        obtain rfl := Except.error.inj he
        obtain rfl := encryptField_error hC hkek hlen (h.rowKey hrow) hmsg (Prod.ext hfield rfl)
        refine ⟨fun hempty => ?_, rfl⟩
        unfold Guard.rowKey at hrow
        rw [if_pos hempty] at hrow
        exact encryptField_wrapped hC hkek hrow hmsg hfield

/-- With its keys in place, a Guard has no failure of its own. -/
lemma work_flaw (hC : Seals C) (hkek : g.provider.keys.get g.kek = some key)
    (hlen : key.length = keyLen) (hindex : g.provider.keys.get g.indexKey = some indexMaterial)
    (h : KeysOnly w) (hshort : call.short = true)
    (he : (g.work P C hmac w r call).1.status = some e) : call.flaw = some e := by
  cases call with
  | verifyAssertion req =>
    simp only [Guard.work, assess] at he
    split at he
    · split at he <;> cases he
    next hnone =>
      obtain rfl := Option.some.inj he
      refine if_neg fun hboth => ?_
      rw [Bool.and_eq_true] at hboth
      obtain ⟨cred, hcred⟩ := Option.isSome_iff_exists.mp hboth.1
      obtain ⟨assertion, hassertion⟩ := Option.isSome_iff_exists.mp hboth.2
      exact hnone cred assertion hcred hassertion
  | encryptField req =>
    cases hseal : (g.sealRow C w r req).1 with
    | ok resp =>
      simp only [Guard.work, hseal] at he
      cases he
    | error e' =>
      simp only [Guard.work, hseal] at he
      obtain rfl := Option.some.inj he
      obtain ⟨hne, rfl⟩ := sealRow_error hC hkek hlen h (of_decide_eq_true hshort) hseal
      exact if_neg hne
  | decryptField req =>
    cases hdec : g.provider.decryptField w g.kek (tenantOf req.context) req.wrappedDek
        req.ciphertext with
    | ok plaintext =>
      simp only [Guard.work, hdec] at he
      cases he
    | error e' =>
      simp only [Guard.work, hdec] at he
      obtain rfl := Option.some.inj he
      rw [decryptField_error hkek hlen h hdec]
      rfl
  | blindIndex req =>
    simp only [Guard.work, SoftwareProvider.blindIndex, hindex] at he
    cases he

/-- The errors of a Guard: the gate's, the limiter's, and what is wrong with the call. -/
lemma serve_errors (hC : Seals C) (hkek : g.provider.keys.get g.kek = some key)
    (hlen : key.length = keyLen) (hindex : g.provider.keys.get g.indexKey = some indexMaterial)
    (h : KeysOnly s.world) (hshort : i.call.short = true)
    (he : (g.serve P C hmac s i).1.status = some e) :
    i.gate = .error e ∨ e = budgetExceeded ∨ i.call.flaw = some e := by
  cases hgate : i.gate with
  | error e' =>
    rw [serve_rejected hgate, status_refused] at he
    exact .inl (Option.some.inj he ▸ rfl)
  | ok u =>
    cases hallow :
        (g.limiter.allow s.tables i.moment.now i.moment.order i.tenantID i.call.op).1 with
    | false =>
      rw [serve_limited hgate hallow, status_refused] at he
      exact .inr (.inl (Option.some.inj he).symm)
    | true =>
      rw [serve_done hgate hallow] at he
      exact .inr (.inr (work_flaw hC hkek hlen hindex h hshort he))

/-- The keys that the process puts in place. -/
lemma developmentKeys_kek :
    developmentKeys.keys.get kek = some (List.replicate 32 0xa5) := Dict.get_set_self _ _ _

lemma developmentKeys_index :
    developmentKeys.keys.get indexKey = some (List.replicate 32 0x5a) :=
  (Dict.get_set_ne _ (by decide) _).trans (Dict.get_set_self _ _ _)

lemma keysOnly_start : KeysOnly (State.world .start) := fun _ he => absurd he List.not_mem_nil

end launched

/-- A Guard that its process started never answers with an internal error, whatever is called of
it, and it runs no profile that wants a validated module. -/
theorem launched_never_fails {env : Environment} {l : Launch} {P : Webauthn.Platform} {C : Cipher}
    {hmac : Bytes → Bytes → Index} {is : List Incoming} (hl : launch env = some l) (hC : Seals C)
    (hshort : ∀ i ∈ is, i.call.short = true) :
    l.profile ≠ .regulated ∧
      ∀ x ∈ Machine.transcript (l.guard.serve P C hmac) .start is, ∀ e, x.2.status = some e →
        e.code ≠ .internal := by
  obtain ⟨profile, g⟩ := l
  obtain ⟨hprofile, rfl⟩ := launch_some hl
  refine ⟨hprofile, fun x hx e he => ?_⟩
  obtain ⟨s, hs, hx₁, hx₂⟩ := (Machine.transcript_invariant (I := fun s : State => KeysOnly s.world)
    keysOnly_start hshort fun s i hs _ => keysOnly_serve hs).1 x hx
  rw [hx₂] at he
  rcases serve_errors hC developmentKeys_kek List.length_replicate developmentKeys_index hs hx₁ he
    with hgate | rfl | hflaw
  · exact validate_error hgate
  · exact Code.noConfusion
  · exact flaw_code hflaw

namespace Row

/-- The row's key, wrapped for the first tenant by a development. -/
def developed : Entry where
  key := List.replicate 32 0xa5
  nonce := wrapNonce
  aad := aad domainDekWrap tenant
  msg := dek
  text :=
    [0x94, 0x37, 0xed, 0xc6, 0x7d, 0x75, 0x20, 0x78, 0xa7, 0x05, 0xf5, 0xfd, 0xb0, 0xe4, 0xea,
     0x11, 0x70, 0x34, 0x4c, 0xa1, 0x14, 0xb6, 0xd7, 0xc2, 0xda, 0x47, 0x7a, 0x51, 0x04, 0x7c,
     0x95, 0xbe, 0x30, 0x3e, 0x2d, 0x23, 0x48, 0xa4, 0xda, 0xf7, 0xff, 0x36, 0xaf, 0xbc, 0x10,
     0xef, 0x20, 0x04]

def developmentCipher : Cipher := .ofTable [developed, nameField] (by decide)

lemma developmentCipher_seals : Seals developmentCipher := by
  intro key nonce a msg _ _ _
  unfold developmentCipher Cipher.ofTable
  dsimp only
  split <;> rfl

/-- A deployment that is complete, and names a profile that the provider meets. -/
def environment : Environment where
  var name :=
    if name = ascii "AIAUTH_PROFILE" then some (ascii " Strict ")
    else if name = ascii "CRYPTO_ADDR" then none
    else some name
  file name := some name
  isAddr addr := addr = ascii "0.0.0.0:9090"
  isTls _ _ ca := ca = ascii "CRYPTO_CA_FILE"

end Row

theorem launched_never_fails_row :
    (⟨.strict, .new developmentKeys indexKey kek⟩ : Launch).profile ≠ .regulated ∧
      ∀ x ∈ Machine.transcript
          ((Guard.new developmentKeys indexKey kek).serve Row.platform Row.developmentCipher
            Row.hmac) .start Row.calls, ∀ e, x.2.status = some e → e.code ≠ .internal :=
  @launched_never_fails Row.environment _ _ _ _ _ rfl Row.developmentCipher_seals (by decide)

end AiAuth.CryptoService

namespace AiAuth.Server
open Library Oidc Login

/-! ## The gateway -/

/-- What the process finds: variables, where one that is not set reads as empty, whether a database
can be opened, the files and addresses that make a channel to the Guard, and a new key. -/
structure Environment where
  getenv : Bytes → Bytes
  opens : Bytes → Bool
  isCA : Bytes → Bool
  isKeyPair : Bytes → Bytes → Bool
  isTarget : Bytes → Bool
  generateKey : Option P256.Point

/-- Paths of certificates, and the identity that the Guard has to prove. -/
structure GuardConfig where
  addr : Bytes
  caFile : Bytes
  certFile : Bytes
  keyFile : Bytes
  serverName : Bytes

namespace Environment
variable (env : Environment)

def envOr (name fallback : Bytes) : Bytes :=
  if env.getenv name ≠ [] then env.getenv name else fallback

/-- No certificates, no client. -/
def newGuard (cfg : GuardConfig) : Bool :=
  cfg.addr ≠ [] && cfg.caFile ≠ [] && cfg.certFile ≠ [] && cfg.keyFile ≠ [] &&
    cfg.serverName ≠ [] && env.isCA cfg.caFile && env.isKeyPair cfg.certFile cfg.keyFile &&
    env.isTarget cfg.addr

def guardConfig : GuardConfig :=
  ⟨env.getenv (ascii "GUARD_ADDR"), env.getenv (ascii "GUARD_CA_FILE"),
    env.getenv (ascii "GUARD_CERT_FILE"), env.getenv (ascii "GUARD_KEY_FILE"),
    env.envOr (ascii "GUARD_SERVER_NAME") (ascii "crypto")⟩

end Environment

/-- A signer without a key or a name does not exist. -/
def newSigner (iss kid : Bytes) (key : P256.Point) : Option Tokens.Signer :=
  if h : iss ≠ [] ∧ kid ≠ [] then some ⟨key, kid, iss, h.1, h.2⟩ else none

/-- The clients of a development: one, or nobody. -/
def seededClients (env : Environment) : Option Registry :=
  let dev := env.getenv (ascii "OIDC_DEV_CLIENT_REDIRECT")
  let id := env.envOr (ascii "OIDC_DEV_CLIENT_ID") (ascii "dev")
  if dev = [] then some .new
  else match Registry.new.register ⟨id, [dev]⟩ with
    | .error _ => none
    | .ok registry => some registry

/-- Where the process keeps codes and revocations. -/
inductive Storage
  | inMemory
  | postgres
  deriving DecidableEq

/-- With a database the stores are in it, and it has to open. -/
def selectStorage (env : Environment) : Option Storage :=
  let dsn := env.getenv (ascii "DATABASE_URL")
  if dsn = [] then some .inMemory
  else if env.opens dsn then some .postgres
  else none

/-- The configuration that the process serves and its storage, or none where it exits. -/
def mainConfig (version : Bytes) (env : Environment) : Option (Storage × Config) := do
  let guarded : Bool := env.getenv (ascii "GUARD_ADDR") ≠ []
  guard (!guarded || env.newGuard env.guardConfig)
  let storage ← selectStorage env
  let issuer := env.getenv (ascii "OIDC_ISSUER")
  if issuer = [] then
    return (storage, ⟨version, guarded, [], [], none, [], none, ascii "/login", none, false⟩)
  else
    let key ← env.generateKey
    let signer ← newSigner issuer (ascii "dev-1") key
    let registry ← seededClients env
    return (storage, ⟨version, guarded, issuer, env.envOr (ascii "OIDC_AUDIENCE") (ascii "api"),
      some signer, [(ascii "dev-1", key)], some registry, ascii "/login", none, false⟩)

lemma mainConfig_login {version : Bytes} {env : Environment} {storage : Storage} {cfg : Config}
    (h : mainConfig version env = some (storage, cfg)) :
    cfg.login = none ∧ cfg.loginURL = ascii "/login" := by
  unfold mainConfig at h
  dsimp only at h
  obtain ⟨-, -, h⟩ := Option.bind_eq_some_iff.mp h
  obtain ⟨storage', -, h⟩ := Option.bind_eq_some_iff.mp h
  split_ifs at h
  · obtain ⟨-, rfl⟩ := Prod.mk.inj (Option.some.inj h)
    exact ⟨rfl, rfl⟩
  · obtain ⟨key, -, h⟩ := Option.bind_eq_some_iff.mp h
    obtain ⟨signer, -, h⟩ := Option.bind_eq_some_iff.mp h
    obtain ⟨registry, -, h⟩ := Option.bind_eq_some_iff.mp h
    obtain ⟨-, rfl⟩ := Prod.mk.inj (Option.some.inj h)
    exact ⟨rfl, rfl⟩

/-- Nobody has begun a login or finished one. -/
structure Untouched (registered : Credentials) (s : Stores) : Prop where
  challenges : s.login.challenges = .new
  credentials : s.login.credentials = registered
  codes : s.login.codes = .new

section untouched
variable {cfg : Config} {P : Dpop.Platform} {J : Tokens.Codec} {registered : Credentials}
  {s : Stores} {x : Surroundings} {r : Request}

/-- Where there are no codes, there are no tokens. -/
lemma token_of_no_codes {t : Token} {seen : Dpop.ReplayCache} {clk : TokenReadings}
    {raw : Option Bytes} {seed : Bytes} {req : TokenRequest} :
    (t.serveHTTP P J .new seen clk raw seed req).1.accessToken = none ∧
      (t.serveHTTP P J .new seen clk raw seed req).2 = (.new, seen) := by
  unfold Token.serveHTTP Token.exchange
  cases hparse : Token.parse req with
  | error resp => exact ⟨accessToken_parse hparse, rfl⟩
  | ok form =>
    have hredeem : Token.redeem P.toCrypto .new clk.redeem form =
        (.error Token.invalidGrant, .new) := by
      simp only [Token.redeem, CodeStore.redeem, CodeStore.new, Dict.get_empty]
    dsimp only
    rw [hredeem]
    exact ⟨accessToken_fail _ _ _, rfl⟩

/-- The endpoints of the login are there with the ceremony only. -/
lemma handler_of_no_login (hlogin : cfg.login = none) {p : Pattern} (hp : p ∈ cfg.patterns)
    (c : Ceremony) : p.handler ≠ .begin c ∧ p.handler ≠ .finish c := by
  unfold Config.patterns at hp
  split at hp
  · simp only [Config.flow, hlogin, List.append_nil] at hp
    fin_cases hp <;> simp
  · fin_cases hp <;> simp

lemma path_of_no_login (hlogin : cfg.login = none) {p : Pattern} (hp : p ∈ cfg.patterns) :
    p.path ∈ [ascii "/healthz", ascii "/readyz", ascii "/authorize", ascii "/token",
      ascii "/.well-known/openid-configuration", ascii "/.well-known/jwks.json"] := by
  unfold Config.patterns at hp
  split at hp
  · simp only [Config.flow, hlogin, List.append_nil] at hp
    fin_cases hp <;> simp
  · fin_cases hp <;> simp

/-- Without a ceremony, no endpoint hands out a code. -/
lemma untouched_serve (hlogin : cfg.login = none) (h : Untouched registered s) :
    Untouched registered (cfg.serve P J s x r).2 ∧ (cfg.serve P J s x r).1.accessToken = none := by
  cases hend : cfg.endpoint r with
  | none =>
    obtain ⟨hstores, hnone⟩ := @serve_refused cfg P J x r s hend
    rw [hstores]
    exact ⟨h, hnone⟩
  | some handler =>
    obtain ⟨hstores, htoken⟩ := @serve_endpoint cfg P J x r handler s hend
    rw [hstores, htoken]
    obtain ⟨p, hp, rfl, -⟩ := mem_patterns hend
    have hno := handler_of_no_login hlogin hp
    cases hhandler : p.handler with
    | healthz version => exact ⟨h, rfl⟩
    | readyz version guard => exact ⟨h, accessToken_readyz _ _ _⟩
    | authorize a => exact ⟨⟨h.challenges, h.credentials, h.codes⟩, accessToken_authorize _ _ _⟩
    | token t =>
      obtain ⟨hnone, hkept⟩ := @token_of_no_codes P J t s.seen x.exchange x.raw x.seed r.exchange
      simp only [Handler.serve, h.codes]
      rw [hkept]
      exact ⟨⟨h.challenges, h.credentials, rfl⟩, hnone⟩
    | discovery doc => exact ⟨h, accessToken_published _ _ rfl⟩
    | jwks keys => exact ⟨h, accessToken_published _ _ rfl⟩
    | begin c => exact absurd hhandler (hno c).1
    | finish c => exact absurd hhandler (hno c).2

/-- No endpoint is the login page. -/
lemma no_login_page (hlogin : cfg.login = none) (hr : r.url.escapedPath = ascii "/login") :
    cfg.endpoint r = none := by
  by_contra hne
  obtain ⟨handler, hend⟩ := Option.ne_none_iff_exists'.mp hne
  obtain ⟨p, hp, -, hfits⟩ := mem_patterns hend
  rw [hr] at hfits
  have hother : ∀ path ∈ [ascii "/healthz", ascii "/readyz", ascii "/authorize", ascii "/token",
      ascii "/.well-known/openid-configuration", ascii "/.well-known/jwks.json"],
      segments path ≠ segments (ascii "/login") := by decide
  exact hother p.path (path_of_no_login hlogin hp) (of_decide_eq_true hfits)

end untouched

/-- As the process puts the gateway together without a database, nobody can log in: whatever is
requested of it, at whatever times, no answer hands out a token, and the stores hold no challenge
and no code. The login page that clients are sent to is not there. -/
theorem main_mints_nothing {version : Bytes} {env : Environment} {cfg : Config} {P : Dpop.Platform}
    {J : Tokens.Codec} {registered : Credentials} {is : List (Surroundings × Request)}
    (hmain : mainConfig version env = some (.inMemory, cfg)) :
    (∀ y ∈ Machine.transcript (fun s i => cfg.serve P J s i.1 i.2) (.new registered) is,
        y.2.accessToken = none) ∧
      Untouched registered
        (Machine.after (fun s i => cfg.serve P J s i.1 i.2) (.new registered) is) ∧
      ∀ r : Request, r.url.escapedPath = cfg.loginURL → cfg.endpoint r = none := by
  obtain ⟨hlogin, hpage⟩ := mainConfig_login hmain
  have hstart : Untouched registered (.new registered) := ⟨rfl, rfl, rfl⟩
  have hany : ∀ i ∈ is, True := fun _ _ => trivial
  obtain ⟨hseen, hend⟩ := Machine.transcript_invariant (f := fun s i => cfg.serve P J s i.1 i.2)
    hstart hany fun s i hs _ => (untouched_serve hlogin hs).1
  refine ⟨fun y hy => ?_, hend, fun r hr => no_login_page hlogin (hr.trans hpage)⟩
  obtain ⟨s, hs, -, hanswer⟩ := hseen y hy
  rw [hanswer]
  exact (untouched_serve hlogin hs).2

namespace Worked
open Flow.Worked

/-- A gateway of a development: no Guard, no database, one client. -/
def environment : Environment where
  getenv name :=
    if name = ascii "OIDC_ISSUER" then gateway.token.issuer
    else if name = ascii "OIDC_DEV_CLIENT_REDIRECT" then ascii "https://app.example/cb"
    else []
  opens _ := false
  isCA _ := false
  isKeyPair _ _ := false
  isTarget _ := false
  generateKey := some gateway.token.signer.key

end Worked

theorem main_mints_nothing_worked : ∃ cfg,
    mainConfig (ascii "dev") Worked.environment = some (.inMemory, cfg) ∧ cfg.signer.isSome ∧
    ∀ y ∈ Machine.transcript (fun s i => cfg.serve Flow.Worked.gateway.platform
        Flow.Worked.gateway.codec s i.1 i.2) (.new Flow.Worked.registered)
        (Worked.traffic.map fun e => (e.surroundings, e.request)), y.2.accessToken = none := by
  obtain ⟨cfg, hmain, hsigner⟩ : ∃ cfg,
      mainConfig (ascii "dev") Worked.environment = some (.inMemory, cfg) ∧ cfg.signer.isSome := by
    have h : (mainConfig (ascii "dev") Worked.environment).any (fun main =>
        main.1 = .inMemory && main.2.signer.isSome) := by decide +kernel
    obtain ⟨⟨storage, cfg⟩, hmain, hboth⟩ := (Option.any_eq_true _ _).mp h
    obtain ⟨hstorage, hsigner⟩ := Bool.and_eq_true_iff.mp hboth
    obtain rfl : storage = .inMemory := of_decide_eq_true hstorage
    exact ⟨cfg, hmain, hsigner⟩
  exact ⟨cfg, hmain, hsigner, (main_mints_nothing hmain).1⟩

end AiAuth.Server
