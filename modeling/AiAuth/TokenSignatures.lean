import AiAuth.Acceptance
import AiAuth.CloneDetection

/-!
# One signature, one token

With a Guard that is honest, every access token of a run costs a signature of a registered key
over a message of its own. Signatures that cannot be forged are a relation between keys and
messages, and the digests of the client data have one width and do not collide in the run.
-/
namespace AiAuth.Flow
open Library Oidc Login CryptoService Webauthn

/-- The client data that the Guard is asked about. -/
def clientDataOf : Event → Option Bytes
  | .verify _ _ _ ask _ => some ask.assertion.clientDataJSON
  | _ => none

/-- The assertion behind a chain. -/
structure Chain.Signed (c : Chain) (w : Gateway) (P : Webauthn.Platform) (tr : List Event)
    (a : Assertion) : Prop where
  asked : a.clientDataJSON ∈ tr.filterMap clientDataOf
  accepts : ∃ n, Accepts P ⟨w.ceremony.rpID, w.ceremony.origin, c.challenge, c.cred.signCount⟩
    c.cred.publicKey a n

section signed
variable {w : Gateway} {P : Webauthn.Platform} {registered : Credentials} {clock : ℤ}
  {tr : List Event} {s : State} {k k' : ℕ} {token token' : Bytes} {c c' : Chain}
  {a a' : Assertion}

/-- In a run with an honest Guard, every label is honest. -/
lemma honest_of_mem {s₀ : State}
    (hr : Run (Guarded (fun _ e => honest P e = true) (StepOf w.step)) s₀ tr s) {e : Event}
    (he : e ∈ tr) : honest P e = true := by
  obtain ⟨pre, post, rfl⟩ := List.append_of_mem he
  obtain ⟨_, _, _, hstep, _⟩ := hr.at_label pre post rfl
  exact hstep.1

/-- The assertion that the Guard verified meets every condition of an accepted one. -/
lemma Chain.Backs.signed
    (hr : Run (Guarded (fun _ e => honest P e = true) (StepOf w.step)) (.start clock registered)
      tr s) (h : c.Backs w registered tr k token) : ∃ a, c.Signed w P tr a := by
  obtain ⟨a, uuid, resp, hmem, hverdict⟩ := h.verified
  have hhonest := honest_of_mem hr hmem
  have hverify : verify P ⟨w.ceremony.rpID, w.ceremony.origin, c.challenge, c.cred.signCount⟩
      c.cred.publicKey a = .ok ⟨resp.newSignCount⟩ := by
    simp only [honest, hverdict, ne_eq, not_true_eq_false, decide_false, Bool.false_or,
      Bool.and_eq_true, decide_eq_true_eq] at hhonest
    exact hhonest.2
  exact ⟨a, List.mem_filterMap.mpr ⟨_, hmem, rfl⟩, _, verify_ok_iff.mp hverify⟩

/-- The client data says which challenge it answers. -/
lemma Chain.Signed.challenge_eq (h : c.Signed w P tr a) (h' : c'.Signed w P tr a')
    (hclient : a.clientDataJSON = a'.clientDataJSON) : c.challenge = c'.challenge := by
  obtain ⟨n, hn⟩ := h.accepts
  obtain ⟨n', hn'⟩ := h'.accepts
  obtain ⟨members, hparse, hfits⟩ := hn.client
  obtain ⟨members', hparse', hfits'⟩ := hn'.client
  rw [hclient, hparse'] at hparse
  obtain rfl : members' = members := Json.object.inj (Option.some.inj hparse)
  obtain ⟨text, htext, hdecode⟩ := hfits.challenge
  obtain ⟨text', htext', hdecode'⟩ := hfits'.challenge
  obtain rfl := Option.some.inj (htext.symm.trans htext')
  exact Option.some.inj (hdecode.symm.trans hdecode')

/-- A challenge is answered once, so one text of client data backs one token request. -/
lemma Chain.Signed.token_eq (hr : Run (StepOf w.step) (.start clock registered) tr s)
    (hb : c.Backs w registered tr k token) (hb' : c'.Backs w registered tr k' token')
    (h : c.Signed w P tr a) (h' : c'.Signed w P tr a')
    (hclient : a.clientDataJSON = a'.clientDataJSON) : k = k' := by
  obtain ⟨pre, post, t, -, htr, -⟩ := hb'.took
  have hfinish : .finish c'.n t (some c'.finish) (some c.challenge) ∈ tr := by
    rw [h.challenge_eq h' hclient, htr]
    simp
  exact hb.finish_inj hr hb' (hb.alone _ _ _ hfinish).symm

end signed

/-- Every token of a run is paid for with a message of its own, signed by the key of a passkey
that is registered for the subject and the tenant of the token. -/
theorem signed_message_per_token {w : Gateway} {P : Webauthn.Platform} {registered : Credentials}
    {clock : ℤ} {tr : List Event} {s : State} {signed : P256.Point → Bytes → Prop}
    (hr : Run (Guarded (fun _ e => honest P e = true) (StepOf w.step)) (.start clock registered)
      tr s)
    (hunforged : ∀ key m r s, P.verify key (P.sha256 m) r s = true → signed key m)
    (hwidth : ∀ b ∈ tr.filterMap clientDataOf, (P.sha256 b).length = 32)
    (hcollision : Set.InjOn P.sha256 { b | b ∈ tr.filterMap clientDataOf }) :
    ∃ message : { k // Mints tr k } → Bytes, Function.Injective message ∧
      ∀ k t raw seed token (h : .mint k t raw seed (some token) ∈ tr), ∃ id cred scope key,
        Registered registered id cred ∧ Minted w token cred.subjectID cred.tenantID scope ∧
        P.keyFromSec1 cred.publicKey = some key ∧
          signed key (message ⟨k, t, raw, seed, token, h⟩) := by
  have hrun := hr.of_guarded
  have hnodup := (once_run hrun).mint.nodup
  have hex : ∀ k : { k // Mints tr k }, ∃ (token : Bytes) (c : Chain) (a : Assertion),
      c.Backs w registered tr k.1 token ∧ c.Signed w P tr a ∧ ∀ t raw seed token',
        .mint k.1 t raw seed (some token') ∈ tr → token' = token := by
    rintro ⟨k, t, raw, seed, token, hmint⟩
    obtain ⟨c, hc⟩ := exists_chain hrun hmint
    obtain ⟨a, ha⟩ := hc.signed hr
    refine ⟨token, c, a, hc, ha, fun t' raw' seed' token' hmint' => ?_⟩
    have hsame := eq_of_nodup_filterMap hnodup hmint' hmint rfl rfl
    exact Option.some.inj (Event.mint.inj hsame).2.2.2.2
  choose token chain assertion hbacks hsigned huniq using hex
  refine ⟨fun k => signedBytes P (assertion k), fun k k' hm => Subtype.ext ?_, ?_⟩
  · have hlength : (P.sha256 (assertion k).clientDataJSON).length =
        (P.sha256 (assertion k').clientDataJSON).length :=
      (hwidth _ (hsigned k).asked).trans (hwidth _ (hsigned k').asked).symm
    have hdigest := (List.append_inj' hm hlength).2
    exact (hsigned k).token_eq hrun (hbacks k) (hbacks k') (hsigned k')
      (hcollision (hsigned k).asked (hsigned k').asked hdigest)
  · intro k t raw seed token' hmint
    let i : { k // Mints tr k } := ⟨k, t, raw, seed, token', hmint⟩
    obtain ⟨n, haccepts⟩ := (hsigned i).accepts
    obtain ⟨key, r, s, hkey, -, hverify⟩ := haccepts.signature
    have hminted := (hbacks i).minted
    rw [← huniq i _ _ _ _ hmint] at hminted
    exact ⟨_, _, _, key, (hbacks i).registered, hminted, hkey, hunforged _ _ _ _ hverify⟩

namespace Worked
open Sessions.Worked (moment signer issuer thumb clientKey)

/-- What the passkey signed. -/
def signedBy (key : P256.Point) (m : Bytes) : Prop :=
  key = P256.doubled ∧ ∃ n ∈ [1, 2, 3], m = signed n

lemma signedBy_of_verify (key : P256.Point) (m : Bytes) (r s : ℕ)
    (h : platform.verify key (platform.sha256 m) r s = true) : signedBy key m := by
  obtain ⟨n, hn, heq⟩ := List.mem_map.mp (of_decide_eq_true h)
  obtain ⟨hkey, hrest⟩ := Prod.mk.inj heq
  have hdigest : signedDigest n = platform.sha256 m := (Prod.mk.inj hrest).1
  have htable : ∀ e ∈ digests ++ [1, 2, 3].map (fun n => (signed n, signedDigest n)),
      ∀ n ∈ [1, 2, 3], signedDigest n = e.2 → e.1 = signed n := by decide +kernel
  have hsome : ∀ n ∈ [1, 2, 3], signedDigest n ≠ [] := by decide +kernel
  refine ⟨hkey.symm, n, hn, ?_⟩
  unfold platform Crypto.ofTables at hdigest
  dsimp only at hdigest
  cases hlookup : (digests ++ [1, 2, 3].map fun n => (signed n, signedDigest n)).lookup m with
  | none =>
    rw [hlookup] at hdigest
    exact absurd hdigest (hsome n hn)
  | some d =>
    rw [hlookup] at hdigest
    obtain ⟨pre, post, hsplit, -⟩ := List.lookup_eq_some_iff.mp hlookup
    exact htable (m, d) (hsplit ▸ List.mem_append_right pre List.mem_cons_self) n hn hdigest

/-! The same client logs in once more, with a second proof, and gets a second token. -/

def secondProofText : Bytes :=
  ascii "\x7b\"jti\":\"p2\",\"htm\":\"POST\",\"htu\":\"https://auth.example/token\"," ++
    ascii "\"iat\":1700000000\x7d"

def secondProofSigning : Bytes :=
  Jws.signingInput (Base64.encode Sessions.Worked.proofHeaderText) (Base64.encode secondProofText)

def secondProofSig : ℕ × ℕ :=
  (0x3988322ab9f52c7f11d5d1aa92a2ac0b00275bcad8e934682257323fda672482,
    0x2990ccce23749bb7a8895d15dacf4b6200bd3d5d2448b9c2df435187145f851b)

def secondProofDigest : Bytes :=
  bigEndian 32 0xc6955aff53654fbcacfad70e4a9fa44f6071533e671ef0b523fc0fa23a026c16

def secondJtiRaw : Bytes := [16, 17, 18, 19, 20, 21, 22, 23, 24, 25, 26, 27, 28, 29, 30, 31]

def secondClaims : Tokens.Claims :=
  { Sessions.Worked.claims with jti := ascii "EBESExQVFhcYGRobHB0eHw" }

def secondClaimsText : Bytes :=
  ascii "\x7b\"iss\":\"https://auth.example\",\"sub\":\"u1\",\"aud\":\"api\"," ++
    ascii "\"tid\":\"t1\",\"scope\":\"openid\",\"iat\":1700000000,\"nbf\":1700000000," ++
    ascii "\"exp\":1700000600,\"jti\":\"EBESExQVFhcYGRobHB0eHw\",\"cnf\":\x7b\"jkt\":\"" ++
    thumb ++ ascii "\"\x7d\x7d"

/-- The JSON of the second token besides that of the first. -/
def twiceCodec : Tokens.Codec :=
  { gateway.codec with
    marshalClaims := fun c =>
      if c = secondClaims then secondClaimsText else gateway.codec.marshalClaims c
    unmarshalClaims := fun b =>
      if b = secondClaimsText then some secondClaims else gateway.codec.unmarshalClaims b }

def secondSigning : Bytes := signer.signing twiceCodec secondClaims

def secondDigest : Bytes :=
  bigEndian 32 0xb0006b25d79d96896967e41ab509044b6025b0838969edb0006a5048b3151d0d

def secondSig : ℕ × ℕ :=
  (0x53c5a47b0f3273d7333320d3dc363b241a99928781b9d8827d9660a01dcdf9e9,
    0x4be37663b5f0e3b1ca6dfccd049bcbf6d718b824e2a7a58ba38650ec9c9f7e4f)

def secondToken : Bytes := Jws.compact secondSigning (Jws.sigBytes secondSig.1 secondSig.2)

/-- Digests and signatures of the second proof and the second token besides the others. -/
def twicePlatform : Dpop.Platform :=
  { gateway.platform with
    sha256 := fun m =>
      if m = secondProofSigning then secondProofDigest
      else if m = secondSigning then secondDigest
      else gateway.platform.sha256 m
    sign := fun k d seed =>
      if (k, d) = (signer.key, secondDigest) then some secondSig else gateway.platform.sign k d seed
    verify := fun k d r s =>
      (k, d, r, s) = (clientKey, secondProofDigest, secondProofSig) ||
        gateway.platform.verify k d r s
    unmarshalPayload := fun b =>
      if b = secondProofText then
        some ⟨ascii "p2", ascii "POST", ascii "https://auth.example/token", 1700000000, []⟩
      else gateway.platform.unmarshalPayload b }

def twiceGateway : Gateway := { gateway with platform := twicePlatform, codec := twiceCodec }

def secondExchange : TokenRequest where
  method := ascii "POST"
  form := some [(ascii "grant_type", ascii "authorization_code"),
    (ascii "code", Base64.encode (codeRaw 1)), (ascii "client_id", ascii "app"),
    (ascii "redirect_uri", ascii "https://app.example/cb"),
    (ascii "code_verifier", Sessions.Worked.codeVerifier)]
  dpop := Jws.compact secondProofSigning (Jws.sigBytes secondProofSig.1 secondProofSig.2)

def twice : List Event :=
  history ++ started (moment 0) 1 ++ accepted 1 5 :: .update 1 ::
    completed (moment 0) 1 (codeRaw 1) ++
    [.redeem 1 (moment 0) secondExchange (some (grant (moment 0))),
      .confirm 1 (moment 0) (moment 0), .mint 1 (moment 0) (some secondJtiRaw) [] (some secondToken)]

/-- The texts of client data in the run have digests of their own. -/
lemma client_collision : Set.InjOn platform.sha256 { b | b ∈ twice.filterMap clientDataOf } := by
  have hall : ∀ b ∈ twice.filterMap clientDataOf, ∀ b' ∈ twice.filterMap clientDataOf,
      platform.sha256 b = platform.sha256 b' → b = b' := by decide +kernel
  exact fun b hb b' hb' => hall b hb b' hb'

lemma twice_mints : Mints twice 0 ∧ Mints twice 1 :=
  ⟨⟨moment 0, some Sessions.Worked.jtiRaw, [], Sessions.Worked.token, by
      simp [twice, history, minted]⟩,
    ⟨moment 0, some secondJtiRaw, [], secondToken, by simp [twice]⟩⟩

end Worked

theorem signed_message_per_token_worked :
    ∃ message : { k // Mints Worked.twice k } → Bytes,
      message ⟨0, Worked.twice_mints.1⟩ ≠ message ⟨1, Worked.twice_mints.2⟩ := by
  obtain ⟨s, hr⟩ := Run.exists_of_foldlM_guarded (fun _ e => honest Worked.platform e = true)
    Worked.twiceGateway.step (.start (Sessions.Worked.moment 0) Worked.registered) Worked.twice
    (by decide +kernel)
  obtain ⟨message, hinj, -⟩ := signed_message_per_token hr
    Worked.signedBy_of_verify (by decide +kernel) Worked.client_collision
  refine ⟨message, fun hsame => ?_⟩
  have hcount : 0 = 1 := congrArg Subtype.val (hinj hsame)
  exact absurd hcount Nat.zero_ne_one

end AiAuth.Flow
