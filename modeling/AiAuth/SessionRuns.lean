import AiAuth.Library.Runs
import AiAuth.Sessions

/-!
# Sessions over time

Runs of one signer, one in-memory revocation store and one guarded route, and what a
revocation means for the rest of a run.
-/
namespace AiAuth.Sessions
open Library

/-- A guarded route and the signer whose tokens it accepts. -/
structure Service where
  signer : Tokens.Signer
  auth : Authenticator
  platform : Dpop.Platform
  codec : Tokens.Codec

/-- One call, with the clock it read and what came out of it. -/
inductive Event
  | issue (now : ℤ) (raw : Option Bytes) (seed : Bytes) (c : Tokens.Claims) (ttl : ℤ)
      (out : Option Bytes)
  | revokeToken (now : ℤ) (jti : Bytes) (forgetAfter : ℤ)
  | revokeSubject (now : ℤ) (tenantID subjectID : Bytes)
  | revokeTenant (now : ℤ) (tenantID : Bytes)
  | request (clk : Readings) (r : Request) (out : Option Tokens.Claims)

structure State where
  clock : ℤ
  seen : Dpop.ReplayCache
  revocations : Revocations

def State.start (clock : ℤ) : State := ⟨clock, .new Dpop.ReplayCache.capacity, .new⟩

namespace Service

/-- The clock never runs backwards; everything else is what the call does. -/
def step (v : Service) (s : State) : Event → Option State
  | .issue now raw seed c ttl out =>
    if s.clock ≤ now ∧
        (v.signer.issue v.platform.toCrypto v.codec now raw seed c ttl).toOption = out then
      some { s with clock := now }
    else none
  | .revokeToken now jti forgetAfter =>
    if s.clock ≤ now then
      some { s with clock := now, revocations := s.revocations.revokeToken now jti forgetAfter }
    else none
  | .revokeSubject now tenantID subjectID =>
    if s.clock ≤ now then
      some { s with clock := now, revocations := s.revocations.revokeSubject now tenantID subjectID }
    else none
  | .revokeTenant now tenantID =>
    if s.clock ≤ now then
      some { s with clock := now, revocations := s.revocations.revokeTenant now tenantID }
    else none
  | .request clk r out =>
    if s.clock ≤ clk.token ∧ clk.token ≤ clk.proof ∧ clk.proof ≤ clk.cache then
      match v.auth.require v.platform v.codec s.seen s.revocations.isRevoked clk r with
      | (res, seen) =>
        if res.toOption = out then some { s with clock := clk.cache, seen := seen } else none
    else none

/-- A request that carries the token reaches the handler. -/
def Passes (v : Service) (tok : Bytes) : Event → Prop
  | .request _ r (some _) => dpopToken v.platform r.authorization = some tok
  | _ => False

end Service

/-! ## Revoking one token -/

/-- The claims in a token's payload, signed or not. -/
def claimsOf (J : Tokens.Codec) (tok : Bytes) : Option Tokens.Claims :=
  (Tokens.splitThree tok).bind fun (_, part₁, _) => (Base64.decode part₁).bind J.unmarshalClaims

lemma claimsOf_verify {v : Tokens.Verifier} {C : Crypto} {J : Tokens.Codec} {now : ℤ}
    {tok audience : Bytes} {c : Tokens.Claims} (h : v.verify C J now tok audience = .ok c) :
    claimsOf J tok = some c ∧ now ≤ Time.ofUnix c.expiresAt + v.leeway := by
  obtain ⟨part₀, part₁, part₂, sig, hsplit, hc, -, -, hcheck⟩ := Tokens.Verifier.verify_ok h
  exact ⟨by simp [claimsOf, hsplit, hc], (Tokens.Verifier.checkClaims_iff.mp hcheck).2.1⟩

/-- A signed text spells the claims it was signed over, as far as the codec gives them back. -/
lemma claimsOf_compact {v : Tokens.Signer} {J : Tokens.Codec} {c c' : Tokens.Claims} {sig : Bytes}
    (h : claimsOf J (Jws.compact (v.signing J c) sig) = some c') :
    J.unmarshalClaims (J.marshalClaims c) = some c' := by
  obtain ⟨⟨part₀, part₁, part₂⟩, hsplit, hc⟩ := Option.bind_eq_some_iff.mp h
  have htext : Jws.compact (v.signing J c) sig = Base64.encode (J.marshalHeader ⟨ascii "ES256",
      ascii "at+jwt", v.kid⟩) ++ ch '.' :: (Base64.encode (J.marshalClaims c) ++
        ch '.' :: Base64.encode sig) := by
    simp [Jws.compact, Tokens.Signer.signing, Jws.signingInput]
  rw [htext, Tokens.splitThree, cut_append (Jws.dot_notMem_encode _),
    cut_append (Jws.dot_notMem_encode _)] at hsplit
  split_ifs at hsplit
  dsimp only at hsplit
  split_ifs at hsplit
  obtain ⟨-, rfl, -⟩ : _ ∧ _ ∧ _ := by simpa using hsplit
  simpa [Base64.decode_encode] using hc

/-- No call of `revokeToken` comes after the time kept for this token's id while the token
could still verify. -/
def keepsMark (v : Service) (c : Tokens.Claims) (s : State) : Event → Bool
  | .revokeToken now jti f =>
    ((s.revocations.tokens.set jti f).get c.jti).all fun g =>
      now ≤ g || Time.ofUnix c.expiresAt + v.auth.tokens.leeway < now
  | _ => true

/-- The token is past verifying, or its id is marked. -/
def Dead (v : Service) (c : Tokens.Claims) (s : State) : Prop :=
  Time.ofUnix c.expiresAt + v.auth.tokens.leeway < s.clock ∨
    (s.revocations.tokens.get c.jti).isSome

section revokeToken
variable {v : Service} {c : Tokens.Claims} {s s' : State} {e : Event}

/-- What a step does to the clock and to the marks. -/
lemma step_frame (h : v.step s e = some s') :
    s.clock ≤ s'.clock ∧ (s'.revocations.tokens = s.revocations.tokens ∨
      ∃ now jti f, e = .revokeToken now jti f) := by
  cases e with
  | issue now raw seed c ttl out =>
    simp only [Service.step] at h
    split_ifs at h with hg
    obtain rfl := Option.some.inj h
    exact ⟨hg.1, .inl rfl⟩
  | revokeToken now jti f =>
    simp only [Service.step] at h
    split_ifs at h with hg
    obtain rfl := Option.some.inj h
    exact ⟨hg, .inr ⟨now, jti, f, rfl⟩⟩
  | revokeSubject now tenantID subjectID =>
    simp only [Service.step] at h
    split_ifs at h with hg
    obtain rfl := Option.some.inj h
    exact ⟨hg, .inl rfl⟩
  | revokeTenant now tenantID =>
    simp only [Service.step] at h
    split_ifs at h with hg
    obtain rfl := Option.some.inj h
    exact ⟨hg, .inl rfl⟩
  | request clk r out =>
    simp only [Service.step] at h
    split_ifs at h with hg hout
    obtain rfl := Option.some.inj h
    exact ⟨by simpa using hg.1.trans (hg.2.1.trans hg.2.2), .inl rfl⟩

/-- A call of `revokeToken` that keeps the mark leaves the token dead. -/
lemma dead_revokeToken {now f : ℤ} {jti : Bytes}
    (hm : ((s.revocations.tokens.set jti f).get c.jti).isSome = true)
    (hk : keepsMark v c s (.revokeToken now jti f))
    (h : v.step s (.revokeToken now jti f) = some s') : Dead v c s' := by
  obtain ⟨g, hg⟩ := Option.isSome_iff_exists.mp hm
  simp only [Service.step] at h
  split_ifs at h with hclock
  obtain rfl := Option.some.inj h
  simp only [keepsMark, hg, Option.all_some, Bool.or_eq_true, decide_eq_true_eq] at hk
  rcases hk with hk | hk
  · right
    exact Option.isSome_iff_exists.mpr ⟨g, Revocations.revokeToken_tokens.mpr ⟨hg, hk⟩⟩
  · exact .inl hk

lemma dead_step (hd : Dead v c s) (hk : keepsMark v c s e) (h : v.step s e = some s') :
    Dead v c s' := by
  obtain ⟨hclock, hsame | ⟨now, jti, f, rfl⟩⟩ := step_frame h
  · exact hd.imp (fun hlt => hlt.trans_le hclock) (fun hm => hsame ▸ hm)
  · rcases hd with hlt | hm
    · exact .inl (hlt.trans_le hclock)
    · refine dead_revokeToken ?_ hk h
      rw [Dict.get_set]
      split_ifs
      · rfl
      · exact hm

/-- A dead token does not pass. -/
lemma not_passes_of_dead {tok : Bytes} (htok : claimsOf v.codec tok = some c) (hd : Dead v c s)
    (h : v.step s e = some s') : ¬ v.Passes tok e := by
  intro hp
  match e, hp with
  | .request clk r (some c'), hp =>
    simp only [Service.step] at h
    split_ifs at h with hg hout
    obtain ⟨res, seen, hreq⟩ : ∃ res seen, v.auth.require v.platform v.codec s.seen
        s.revocations.isRevoked clk r = (res, seen) := ⟨_, _, rfl⟩
    rw [hreq] at hout
    cases res with
    | error err => cases hout
    | ok c'' =>
      obtain ⟨raw, jkt, proof, hraw, hv, -, -, -, hlive⟩ := Authenticator.require_ok hreq
      obtain rfl : raw = tok := Option.some.inj (hraw.symm.trans hp)
      obtain ⟨hc, hexp⟩ := claimsOf_verify hv
      obtain rfl : c = c'' := Option.some.inj (htok.symm.trans hc)
      rcases hd with hlt | hm
      · exact absurd (hg.1.trans hexp) (not_le.mpr hlt)
      · obtain ⟨f, hf⟩ := Option.isSome_iff_exists.mp hm
        rw [RevocationChecker.ofClaims, Revocations.isRevoked_of_token hf] at hlive
        cases hlive

end revokeToken

/-- While no sweep drops the mark of a token that can still verify, a token whose id was
revoked until its expiry is never let through again. -/
theorem revoked_token_never_passes {v : Service} {tok : Bytes} {c : Tokens.Claims} {s₀ s : State}
    {tr pre post : List Event} {now : ℤ} (htok : claimsOf v.codec tok = some c)
    (hr : Run (Guarded (fun s e => keepsMark v c s e) (StepOf v.step)) s₀ tr s)
    (htr : tr = pre ++ .revokeToken now c.jti (Time.ofUnix c.expiresAt) :: post) :
    ∀ e ∈ post, ¬ v.Passes tok e := by
  obtain ⟨t, t', -, ⟨hk, hstep⟩, hpost⟩ := hr.at_label pre post htr
  have hdead : Dead v c t' := dead_revokeToken (by simp) hk hstep
  have hinv : Dead v c s ∧ ∀ e ∈ post, ¬ v.Passes tok e := by
    refine hpost.invariant (fun tr s => Dead v c s ∧ ∀ e ∈ tr, ¬ v.Passes tok e)
      ⟨hdead, by simp⟩ ?_
    rintro tr s e s' - ⟨hd, hall⟩ ⟨hk, hs⟩
    refine ⟨dead_step hd hk hs, fun b hb => ?_⟩
    rcases List.mem_append.mp hb with hb | hb
    · exact hall b hb
    · rw [List.mem_singleton.mp hb]
      exact not_passes_of_dead htok hd hs
  exact hinv.2

/-! ## Cutting off a subject -/

section revokeSubject
variable {r : Revocations} {jti tenantID subjectID : Bytes} {cutoff issuedAt : ℤ}

/-- With nothing else revoked, the subject's cutoff alone decides. -/
lemma isRevoked_revokeSubject (hj : r.tokens.get jti = none) (ht : r.tenants.get tenantID = none) :
    (r.revokeSubject cutoff tenantID subjectID).isRevoked jti tenantID subjectID issuedAt = true ↔
      issuedAt ≤ cutoff := by
  simp [Revocations.isRevoked, Revocations.revokeSubject, Revocations.caughtBy, hj, ht]

/-- A cutoff tells tokens issued at or before it from later ones, except for a token issued
later in the same whole second: the token records whole seconds only. -/
theorem subject_cutoff_exact_iff (s : Tokens.Signer) (c : Tokens.Claims) (cutoff issued ttl : ℤ)
    (hj : r.tokens.get jti = none) (ht : r.tenants.get c.tenantID = none) :
    (RevocationChecker.ofClaims (r.revokeSubject cutoff c.tenantID c.subject).isRevoked
        (s.stamp issued ttl jti c) = true ↔ issued ≤ cutoff) ↔
      issued ≤ cutoff ∨ Time.unix issued ≠ Time.unix cutoff := by
  have hcall : RevocationChecker.ofClaims
      (r.revokeSubject cutoff c.tenantID c.subject).isRevoked (s.stamp issued ttl jti c) = true ↔
      Time.ofUnix (Time.unix issued) ≤ cutoff := isRevoked_revokeSubject hj ht
  rw [hcall]
  simp only [Time.ofUnix, Time.unix, Time.second]
  omega

end revokeSubject

/-! ## A worked session

One token, issued, revoked and presented again inside the leeway. Digests and
signatures are those of the texts that occur.
-/
namespace Worked

def issuer : Bytes := ascii "https://auth.example"

/-- An instant by its distance from the login. -/
def moment (s : ℤ) : ℤ := (1700000000 + s) * Time.second

def signer : Tokens.Signer where
  key := P256.generator
  kid := ascii "k1"
  iss := issuer
  iss_ne := by decide
  kid_ne := by decide

/-- The key of the client. -/
def clientKey : P256.Point := P256.doubled

def thumb : Bytes := ascii "AhqHzaYXA5MzmDCrsseUsVBGKyfhDhvekx0THjH_xIE"

def jtiRaw : Bytes := [0, 1, 2, 3, 4, 5, 6, 7, 8, 9, 10, 11, 12, 13, 14, 15]

/-- What the token endpoint asks the signer for. -/
def asked : Tokens.Claims :=
  ⟨[], ascii "u1", ascii "api", ascii "t1", ascii "openid", 0, 0, 0, [], some ⟨thumb⟩⟩

def claims : Tokens.Claims :=
  ⟨issuer, ascii "u1", ascii "api", ascii "t1", ascii "openid", 1700000000, 1700000000,
    1700000600, ascii "AAECAwQFBgcICQoLDA0ODw", some ⟨thumb⟩⟩

def claimsText : Bytes :=
  ascii "\x7b\"iss\":\"https://auth.example\",\"sub\":\"u1\",\"aud\":\"api\"," ++
    ascii "\"tid\":\"t1\",\"scope\":\"openid\",\"iat\":1700000000,\"nbf\":1700000000," ++
    ascii "\"exp\":1700000600,\"jti\":\"AAECAwQFBgcICQoLDA0ODw\",\"cnf\":\x7b\"jkt\":\"" ++
    thumb ++ ascii "\"\x7d\x7d"

def headerText : Bytes := ascii "\x7b\"alg\":\"ES256\",\"typ\":\"at+jwt\",\"kid\":\"k1\"\x7d"

def codec : Tokens.Codec where
  marshalHeader h := if h = ⟨ascii "ES256", ascii "at+jwt", ascii "k1"⟩ then headerText else []
  marshalClaims c := if c = claims then claimsText else []
  unmarshalHeader b := [(headerText, ⟨ascii "ES256", ascii "at+jwt", ascii "k1"⟩)].lookup b
  unmarshalClaims b := [(claimsText, claims)].lookup b

/-- Claims that are read back are the ones that were written. -/
lemma codec_claims {c c' : Tokens.Claims}
    (h : codec.unmarshalClaims (codec.marshalClaims c) = some c') : c' = c := by
  by_cases hc : c = claims
  · subst hc
    have hread : codec.unmarshalClaims (codec.marshalClaims claims) = some claims := by
      decide +kernel
    exact Option.some.inj (h.symm.trans hread)
  · have hempty : codec.unmarshalClaims [] = none := by decide +kernel
    rw [show codec.marshalClaims c = [] from if_neg hc, hempty] at h
    cases h

def tokenSigning : Bytes := signer.signing codec claims

def tokenSig : ℕ × ℕ :=
  (0x88bb9ff22ab291a74c86fc677ba897baadee370cc6129b82d170ba3fc26415c,
    0xebecc3f060a6e4011afaff473052b70b9b9e6357d4a9936f4c1e6d90da1c0ffc)

def token : Bytes := Jws.compact tokenSigning (Jws.sigBytes tokenSig.1 tokenSig.2)

def jwkRaw : Bytes :=
  ascii "\x7b\"kty\":\"EC\",\"crv\":\"P-256\"," ++
    ascii "\"x\":\"fPJ7GI0DT36KUjgDBLUaw8CJaeJ38hs1pgtI_EdmmXg\"," ++
    ascii "\"y\":\"B3dVENuO0EApPZrGn3Qw27p9reY86YIpngS3nSJ4c9E\"\x7d"

def jwk : Dpop.JWK :=
  ⟨ascii "EC", ascii "P-256", ascii "fPJ7GI0DT36KUjgDBLUaw8CJaeJ38hs1pgtI_EdmmXg",
    ascii "B3dVENuO0EApPZrGn3Qw27p9reY86YIpngS3nSJ4c9E", []⟩

def proofHeaderText : Bytes :=
  ascii "\x7b\"typ\":\"dpop+jwt\",\"alg\":\"ES256\",\"jwk\":" ++ jwkRaw ++ ascii "\x7d"

/-- The proof that comes with the token, made ten seconds after the token expired. -/
def proofText : Bytes :=
  ascii "\x7b\"jti\":\"p1\",\"htm\":\"GET\",\"htu\":\"https://auth.example/me\"," ++
    ascii "\"iat\":1700000610,\"ath\":\"ckcw-UVTgpvGRzYaasKy2OMYHFNBCv-RvVkPg8X2bIU\"\x7d"

def proofPayload : Dpop.Payload :=
  ⟨ascii "p1", ascii "GET", ascii "https://auth.example/me", 1700000610,
    ascii "ckcw-UVTgpvGRzYaasKy2OMYHFNBCv-RvVkPg8X2bIU"⟩

def proofSigning : Bytes :=
  Jws.signingInput (Base64.encode proofHeaderText) (Base64.encode proofText)

def proofSig : ℕ × ℕ :=
  (0x10a490523955cbc2c2d3452458fcdf97c4733469f187905f5cb67347f4244eb8,
    0xa2d63718d153083fc27d3612063cc28570a54bd39b100e20796738e494f3ccc7)

def proof : Bytes := Jws.compact proofSigning (Jws.sigBytes proofSig.1 proofSig.2)

/-- The proof that was sent to the token endpoint. -/
def loginProofText : Bytes :=
  ascii "\x7b\"jti\":\"p0\",\"htm\":\"POST\",\"htu\":\"https://auth.example/token\"," ++
    ascii "\"iat\":1700000000\x7d"

def loginProofPayload : Dpop.Payload :=
  ⟨ascii "p0", ascii "POST", ascii "https://auth.example/token", 1700000000, []⟩

def loginProofSigning : Bytes :=
  Jws.signingInput (Base64.encode proofHeaderText) (Base64.encode loginProofText)

def loginProofSig : ℕ × ℕ :=
  (0x6b6e13f47978ecacddd9dd367584af58ec9a1bf44acc4c2405f209c6c9f2d4d,
    0xefbaccb163f0c70fee8f1975aa3c8b900ff4d788e2e3ddabd52d492dd8ee7c9c)

def loginProof : Bytes := Jws.compact loginProofSigning (Jws.sigBytes loginProofSig.1 loginProofSig.2)

def loginProofDigest : Bytes :=
  bigEndian 32 0x791231d3919b9442d8512d819aec44b15c78cfb330d9f7e25516b50a6b51b136

/-- The code verifier and the challenge it answers. -/
def codeVerifier : Bytes := ascii "dBjftJeZ4CVP-mB92K27uhbUJU1p1r_wW1gFWFOEjXk"
def codeChallenge : Bytes := ascii "E9Melhoa2OwvFrEMTJguCHaoeK1t8URWbuGJSstw-cM"

def tokenDigest : Bytes :=
  bigEndian 32 0x6fd13191e8241cd53aee63ea575b7d392c4f732c4c968a793fabffce2cc6cb70

def proofDigest : Bytes :=
  bigEndian 32 0x5bf7980b3ef60bc224ec44f668b9da78d9aa3478db7763647e962731171f86ff

def platform : Dpop.Platform where
  toCrypto := .ofTables
    [(tokenSigning, tokenDigest), (proofSigning, proofDigest),
      (loginProofSigning, loginProofDigest),
      (codeVerifier,
        bigEndian 32 0x13d31e961a1ad8ec2f16b10c4c982e0876a878ad6df144566ee1894acb70f9c3),
      (token, bigEndian 32 0x724730f94553829bc647361a6ac2b2d8e3181c53410aff91bd590f83c5f66c85),
      (Dpop.jwkText clientKey,
        bigEndian 32 0x021a87cda6170393339830abb2c794b150462b27e10e1bde931d131e31ffc481)]
    [(signer.key, tokenDigest, tokenSig), (clientKey, proofDigest, proofSig),
      (clientKey, loginProofDigest, loginProofSig)]
  unmarshalHeader b := [(proofHeaderText, ⟨ascii "dpop+jwt", ascii "ES256", jwkRaw⟩)].lookup b
  unmarshalJWK b := [(jwkRaw, jwk)].lookup b
  unmarshalPayload b := [(proofText, proofPayload), (loginProofText, loginProofPayload)].lookup b
  toFolding := .ascii

def service : Service where
  signer := signer
  auth := ⟨.new issuer signer.key (by decide), ascii "api", issuer⟩
  platform := platform
  codec := codec

def request : Request := ⟨ascii "GET", ascii "/me", ascii "DPoP " ++ token, proof⟩

/-- Log in, revoke the token until its expiry, and present it ten seconds after that.
Another revocation one second after the expiry may come in between. -/
def history (other : Bool) (out : Option Tokens.Claims) : List Event :=
  [.issue (moment 0) (some jtiRaw) [] asked (10 * Time.minute) (some token),
    .revokeToken (moment 100) claims.jti (Time.ofUnix claims.expiresAt)] ++
  ((if other then [.revokeToken (moment 601) (ascii "other") (moment 700)] else []) ++
    [.request ⟨moment 610, moment 610, moment 610⟩ request out])

end Worked

/-- A token minted 0.7 s into a second is killed by a cutoff 0.2 s into it. -/
theorem subject_cutoff_inexact :
    ¬ ∀ (r : Revocations) (s : Tokens.Signer) (c : Tokens.Claims) (cutoff issued ttl : ℤ)
      (jti : Bytes), r.tokens.get jti = none → r.tenants.get c.tenantID = none →
      (RevocationChecker.ofClaims (r.revokeSubject cutoff c.tenantID c.subject).isRevoked
        (s.stamp issued ttl jti c) = true ↔ issued ≤ cutoff) := by
  intro h
  have := h .new Worked.signer Worked.asked 10200000000 10700000000 (10 * Time.minute)
    Worked.claims.jti (by simp [Revocations.new]) (by simp [Revocations.new])
  revert this
  decide +kernel

/-- A second is enough for the cutoff to tell them apart. -/
theorem subject_cutoff_exact_next_second :
    RevocationChecker.ofClaims (Revocations.new.revokeSubject 10200000000
      Worked.asked.tenantID Worked.asked.subject).isRevoked
      (Worked.signer.stamp 11200000000 (10 * Time.minute) Worked.claims.jti Worked.asked) = true ↔
      (11200000000 : ℤ) ≤ 10200000000 :=
  (subject_cutoff_exact_iff Worked.signer Worked.asked 10200000000 11200000000 (10 * Time.minute)
    (by simp [Revocations.new]) (by simp [Revocations.new])).mpr (.inr (by decide))

/-- A sweep between expiry and leeway forgets the revocation, and the token passes. -/
theorem revocation_not_final :
    ¬ ∀ tr s, Run (StepOf Worked.service.step) (State.start (Worked.moment 0)) tr s →
      ∀ pre post now, tr = pre ++ .revokeToken now Worked.claims.jti
        (Time.ofUnix Worked.claims.expiresAt) :: post →
      ∀ e ∈ post, ¬ Worked.service.Passes Worked.token e := by
  intro h
  obtain ⟨s, hr⟩ := Run.exists_of_foldlM Worked.service.step (State.start (Worked.moment 0))
    (Worked.history true (some Worked.claims)) (by decide +kernel)
  refine h _ s hr [_] _ _ rfl (.request ⟨Worked.moment 610, Worked.moment 610, Worked.moment 610⟩
    Worked.request (some Worked.claims)) (by simp) ?_
  show dpopToken Worked.platform Worked.request.authorization = some Worked.token
  decide +kernel

/-- Without the sweep the same request is refused. -/
theorem revoked_token_never_passes_worked :
    ¬ Worked.service.Passes Worked.token (.request
      ⟨Worked.moment 610, Worked.moment 610, Worked.moment 610⟩ Worked.request none) := by
  obtain ⟨s, hr⟩ := Run.exists_of_foldlM_guarded
    (fun s e => keepsMark Worked.service Worked.claims s e) Worked.service.step
    (State.start (Worked.moment 0)) (Worked.history false none) (by decide +kernel)
  exact revoked_token_never_passes (by decide +kernel) hr (rfl : _ = [_] ++ _ :: [_]) _ (by simp)

end AiAuth.Sessions
