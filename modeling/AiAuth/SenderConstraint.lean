import AiAuth.SessionRuns
import AiAuth.TokenEndpoint

/-!
# Sender-constrained tokens, end to end

Runs of the token endpoint and of a guarded route, together with everyone who holds a
key. What was signed, and under which key, is part of the state; a signature is taken
to verify only for what the holder of the key signed.
-/
namespace AiAuth.Gateway
open Library

/-- A token endpoint and a route that accepts its tokens. -/
structure Deployment where
  endpoint : Oidc.Token
  route : Sessions.Authenticator
  platform : Dpop.Platform
  codec : Tokens.Codec
  route_key : route.tokens.key = endpoint.signer.key

/-- `sign` is a key holder's doing; the other steps are the gateway's, with the clock they
read and what came out. A request may be answered by any revocation store. -/
inductive Event
  | sign (k : P256.Point) (msg : Bytes)
  | code (sweepAt now : ℤ) (raw : Option Bytes) (g : Oidc.Grant)
  | token (clk : Oidc.TokenReadings) (raw : Option Bytes) (seed : Bytes) (r : Oidc.TokenRequest)
      (out : Option Bytes)
  | request (clk : Sessions.Readings) (q : Sessions.RevocationChecker) (r : Sessions.Request)
      (out : Option Tokens.Claims)

/-- The stores of the two endpoints and what has been signed so far. -/
structure State where
  codes : Oidc.CodeStore
  tokenSeen : Dpop.ReplayCache
  routeSeen : Dpop.ReplayCache
  signed : List (P256.Point × Bytes)

def State.start : State :=
  ⟨.new, .new Dpop.ReplayCache.capacity, .new Dpop.ReplayCache.capacity, []⟩

namespace Deployment

/-- What is signed in a step, and under which key. -/
def signatures (d : Deployment) : Event → List (P256.Point × Bytes)
  | .sign k msg => [(k, msg)]
  | .token _ _ _ _ (some tok) => [(d.endpoint.signer.key, Jws.signedPart tok)]
  | _ => []

/-- The stores after a step. Nobody but the gateway holds the signing key. -/
def stores (d : Deployment) (s : State) : Event → Option State
  | .sign k _ => if k = d.endpoint.signer.key then none else some s
  | .code sweepAt now raw g => some { s with codes := (s.codes.issue sweepAt now raw g).2 }
  | .token clk raw seed r out =>
    match d.endpoint.exchange d.platform d.codec s.codes s.tokenSeen clk raw seed r with
    | (res, codes, seen) =>
      if res.toOption.map Prod.fst = out then some { s with codes := codes, tokenSeen := seen }
      else none
  | .request clk q r out =>
    match d.route.require d.platform d.codec s.routeSeen q clk r with
    | (res, seen) => if res.toOption = out then some { s with routeSeen := seen } else none

def step (d : Deployment) (s : State) (e : Event) : Option State :=
  (d.stores s e).map fun s' => { s' with signed := d.signatures e ++ s.signed }

/-- A proof that opens was signed by the key it carries. -/
def proofSigned (d : Deployment) (s : State) (jwt : Bytes) : Bool :=
  (Dpop.openProof d.platform jwt).toOption.all fun o => (o.key, o.signing) ∈ s.signed

/-- A token whose signature verifies was signed by the gateway. -/
def tokenSigned (d : Deployment) (s : State) (tok : Bytes) : Bool :=
  (Tokens.splitThree tok).all fun (part₀, part₁, part₂) =>
    (Base64.decode part₂).all fun sig =>
      !Jws.verifySig d.platform.toCrypto d.route.tokens.key (Jws.signingInput part₀ part₁) sig ||
        (d.route.tokens.key, Jws.signingInput part₀ part₁) ∈ s.signed

/-- No signature presented in the step is a forgery. -/
def unforged (d : Deployment) (s : State) : Event → Bool
  | .token _ _ _ r _ => d.proofSigned s r.dpop
  | .request _ _ r _ => d.proofSigned s r.dpop &&
    (Sessions.dpopToken d.platform r.authorization).all fun tok => d.tokenSigned s tok
  | _ => true

/-- The keys whose thumbprints a step compares or writes. -/
def keysOf (d : Deployment) : Event → List P256.Point
  | .token _ _ _ r _ => ((Dpop.openProof d.platform r.dpop).toOption.map Dpop.Opened.key).toList
  | .request _ _ r _ => ((Dpop.openProof d.platform r.dpop).toOption.map Dpop.Opened.key).toList
  | _ => []

/-- No two keys seen in a run have texts with one digest. -/
def CollisionFree (d : Deployment) (tr : List Event) : Prop :=
  ∀ k ∈ tr.flatMap d.keysOf, ∀ k' ∈ tr.flatMap d.keysOf,
    d.platform.sha256 (Dpop.jwkText k) = d.platform.sha256 (Dpop.jwkText k') →
    Dpop.jwkText k = Dpop.jwkText k'

end Deployment

/-- Reading claims back from their JSON text gives the confirmation that was written, for
the ASCII text that a thumbprint is. -/
def KeepsConfirm (J : Tokens.Codec) : Prop :=
  ∀ c c', J.unmarshalClaims (J.marshalClaims c) = some c' →
    (∀ k, c.confirm = some k → ∀ b ∈ k.jkt, b < 128) → c'.confirm = c.confirm

/-- The exchange that a token came from. -/
structure Origin where
  clk : Oidc.TokenReadings
  raw : Option Bytes
  seed : Bytes
  request : Oidc.TokenRequest
  token : Bytes
  grant : Oidc.Grant
  jti : Bytes
  proof : Dpop.Opened

namespace Origin

def event (x : Origin) : Event := .token x.clk x.raw x.seed x.request (some x.token)

/-- The claims that were signed, bound to the key of the proof. -/
def claims (d : Deployment) (x : Origin) : Tokens.Claims :=
  d.endpoint.signer.stamp x.clk.issue Oidc.accessTokenTTL x.jti
    (d.endpoint.claims x.grant (some ⟨Dpop.thumbprint d.platform.toCrypto x.proof.key⟩))

/-- The exchange opened the proof of its request and signed the claims. -/
structure Valid (d : Deployment) (x : Origin) : Prop where
  opened : Dpop.openProof d.platform x.request.dpop = .ok x.proof
  signed : Jws.signedPart x.token = d.endpoint.signer.signing d.codec (x.claims d)

end Origin

/-- What holds along a run without forgeries: whatever is signed was signed in some step,
the gateway's key signed nothing but tokens, and the proofs of exchanges were signed. -/
structure Inv (d : Deployment) (tr : List Event) (s : State) : Prop where
  logged : ∀ e ∈ s.signed, ∃ ev ∈ tr, e ∈ d.signatures ev
  tokens : ∀ m, (d.endpoint.signer.key, m) ∈ s.signed → ∃ x : Origin, x.event ∈ tr ∧ x.Valid d ∧
    m = Jws.signedPart x.token ∧ (x.proof.key, x.proof.signing) ∈ s.signed

section inv
variable {d : Deployment} {s s' : State} {tr : List Event} {e : Event}

lemma step_signed (h : d.step s e = some s') : s'.signed = d.signatures e ++ s.signed := by
  obtain ⟨t, -, rfl⟩ := Option.map_eq_some_iff.mp h
  rfl

lemma mem_signed_of_opened {jwt : Bytes} {o : Dpop.Opened} (hs : d.proofSigned s jwt = true)
    (ho : Dpop.openProof d.platform jwt = .ok o) : (o.key, o.signing) ∈ s.signed := by
  simpa [Deployment.proofSigned, ho, Except.toOption] using hs

/-- An exchange that hands out a token has an origin. -/
lemma origin_of_step {clk : Oidc.TokenReadings} {raw : Option Bytes} {seed tok : Bytes}
    {r : Oidc.TokenRequest} (hdpop : d.endpoint.dpop = true)
    (h : d.step s (.token clk raw seed r (some tok)) = some s') :
    ∃ x : Origin, x.event = .token clk raw seed r (some tok) ∧ x.Valid d ∧ x.token = tok ∧
      x.request = r := by
  obtain ⟨t, ht, -⟩ := Option.map_eq_some_iff.mp h
  simp only [Deployment.stores] at ht
  split_ifs at ht with hout
  obtain ⟨p, hp, rfl⟩ := Option.map_eq_some_iff.mp hout
  obtain ⟨res, codes, seen, hex⟩ : ∃ res codes seen, d.endpoint.exchange d.platform d.codec s.codes
      s.tokenSeen clk raw seed r = (res, codes, seen) := ⟨_, _, _, rfl⟩
  rw [hex] at hp
  cases res with
  | error err => cases hp
  | ok p' =>
    obtain rfl : p' = p := Option.some.inj hp
    obtain ⟨f, g, k, -, -, hk, hmint, -⟩ := Oidc.Token.exchange_ok hex
    obtain ⟨o, ho, rfl⟩ := Oidc.Token.confirm_ok hdpop hk
    obtain ⟨jti, sig, -, htok⟩ := Oidc.Token.mint_ok hmint
    exact ⟨⟨clk, raw, seed, r, p'.1, g, jti, o⟩, rfl,
      ⟨ho, by rw [htok]; exact Jws.signedPart_compact _ _⟩,
      rfl, rfl⟩

lemma inv_step (hdpop : d.endpoint.dpop = true) (hi : Inv d tr s) (hg : d.unforged s e = true)
    (h : d.step s e = some s') : Inv d (tr ++ [e]) s' := by
  refine ⟨fun x hx => ?_, fun m hm => ?_⟩
  · rw [step_signed h, List.mem_append] at hx
    rcases hx with hx | hx
    · exact ⟨e, by simp, hx⟩
    · obtain ⟨ev, hev, hmem⟩ := hi.logged x hx
      exact ⟨ev, by simp [hev], hmem⟩
  · rw [step_signed h, List.mem_append] at hm
    rcases hm with hm | hm
    · match e, hg, h, hm with
      | .sign k msg, _, h, hm =>
        obtain ⟨hk, -⟩ : d.endpoint.signer.key = k ∧ m = msg := by
          simpa [Deployment.signatures] using hm
        simp [Deployment.step, Deployment.stores, hk] at h
      | .token clk raw seed r (some tok), hg, h, hm =>
        obtain ⟨x, hx, hv, rfl, hr⟩ := origin_of_step hdpop h
        have hm : m = Jws.signedPart x.token := by simpa [Deployment.signatures] using hm
        refine ⟨x, by simp [hx], hv, hm, ?_⟩
        rw [step_signed h]
        exact List.mem_append_right _ (mem_signed_of_opened hg (hr ▸ hv.opened))
    · obtain ⟨x, hx, hv, hxm, hsig⟩ := hi.tokens m hm
      refine ⟨x, by simp [hx], hv, hxm, ?_⟩
      rw [step_signed h]
      exact List.mem_append_right _ hsig

/-- A request that is let through passed every check of the route. -/
lemma require_of_step {clk : Sessions.Readings} {q : Sessions.RevocationChecker}
    {r : Sessions.Request} {c : Tokens.Claims}
    (h : d.step s (.request clk q r (some c)) = some s') :
    ∃ seen, d.route.require d.platform d.codec s.routeSeen q clk r = (.ok c, seen) := by
  obtain ⟨t, ht, -⟩ := Option.map_eq_some_iff.mp h
  simp only [Deployment.stores] at ht
  split_ifs at ht with hout
  obtain ⟨res, seen, hreq⟩ : ∃ res seen,
      d.route.require d.platform d.codec s.routeSeen q clk r = (res, seen) := ⟨_, _, rfl⟩
  rw [hreq] at hout
  cases res with
  | error err => cases hout
  | ok c' =>
    obtain rfl : c' = c := Option.some.inj hout
    exact ⟨seen, hreq⟩

lemma inv_of_run (hdpop : d.endpoint.dpop = true)
    (hr : Run (Guarded (fun s e => d.unforged s e) (StepOf d.step)) State.start tr s) :
    Inv d tr s := by
  refine hr.invariant (Inv d) ⟨by simp [State.start], by simp [State.start]⟩ ?_
  rintro tr s e s' - hi ⟨hg, hs⟩
  exact inv_step hdpop hi hg hs

/-- A token that verifies comes from an exchange, and its payload is what was signed there. -/
lemma origin_of_verify (hi : Inv d tr s) {now : ℤ} {tok audience : Bytes} {c : Tokens.Claims}
    (hv : d.route.tokens.verify d.platform.toCrypto d.codec now tok audience = .ok c)
    (hsigned : d.tokenSigned s tok = true) :
    ∃ (x : Origin) (part₀ part₁ part₂ : Bytes), x.event ∈ tr ∧ x.Valid d ∧
      Tokens.splitThree tok = some (part₀, part₁, part₂) ∧
      Jws.signedPart x.token = Jws.signingInput part₀ part₁ ∧
      d.codec.unmarshalClaims (d.codec.marshalClaims (x.claims d)) = some c ∧
      (x.proof.key, x.proof.signing) ∈ s.signed := by
  obtain ⟨part₀, part₁, part₂, sig, hsplit, hc, hdec, hver, -⟩ := Tokens.Verifier.verify_ok hv
  have hmem : (d.route.tokens.key, Jws.signingInput part₀ part₁) ∈ s.signed := by
    simpa [Deployment.tokenSigned, hsplit, hdec, hver] using hsigned
  rw [d.route_key] at hmem
  obtain ⟨x, hx, hvalid, hm, hproof⟩ := hi.tokens _ hmem
  have hdot : ch '.' ∉ part₀ := (Tokens.splitThree_iff.mp hsplit).2.1
  obtain ⟨-, rfl⟩ := Jws.signingInput_inj hdot (Jws.dot_notMem_encode _) (hm.trans hvalid.signed)
  rw [Base64.decode_encode, Option.bind_some] at hc
  exact ⟨x, part₀, _, part₂, hx, hvalid, hsplit, hm.symm, hc, hproof⟩

end inv

/-- The key signed the text in some step of the trace. -/
def Signed (d : Deployment) (tr : List Event) (k : P256.Point) (msg : Bytes) : Prop :=
  ∃ ev ∈ tr, (k, msg) ∈ d.signatures ev

/-- A request that carries a token from an earlier exchange, bound to the key of that
exchange's proof, together with a proof by the same key for this method and this token. -/
def SenderBound (d : Deployment) (pre : List Event) (r : Sessions.Request) (c : Tokens.Claims) :
    Prop :=
  ∃ (tok : Bytes) (x : Origin) (o : Dpop.Opened) (part₀ part₁ part₂ : Bytes),
    Sessions.dpopToken d.platform r.authorization = some tok ∧
    Tokens.splitThree tok = some (part₀, part₁, part₂) ∧
    x.event ∈ pre ∧ x.Valid d ∧ Jws.signedPart x.token = Jws.signingInput part₀ part₁ ∧
    d.codec.unmarshalClaims (d.codec.marshalClaims (x.claims d)) = some c ∧
    (∃ jkt, c.confirm = some ⟨jkt⟩ ∧ jkt ≠ []) ∧
    Dpop.openProof d.platform r.dpop = .ok o ∧ o.key = x.proof.key ∧
    Signed d pre x.proof.key x.proof.signing ∧ Signed d pre o.key o.signing ∧
    o.payload.ath = Base64.encode (d.platform.sha256 tok) ∧
    d.platform.equalFold o.payload.htm r.method = true

/-- Where the token endpoint has a proof verifier, every request that reaches the handler is
bound to its sender. -/
theorem sender_constrained {d : Deployment} {tr pre post : List Event} {s : State}
    {clk : Sessions.Readings} {q : Sessions.RevocationChecker} {r : Sessions.Request}
    {c : Tokens.Claims} (hdpop : d.endpoint.dpop = true) (hjson : KeepsConfirm d.codec)
    (hcoll : d.CollisionFree tr)
    (hr : Run (Guarded (fun s e => d.unforged s e) (StepOf d.step)) State.start tr s)
    (htr : tr = pre ++ .request clk q r (some c) :: post) : SenderBound d pre r c := by
  obtain ⟨t, t', hpre, ⟨hg, hstep⟩, -⟩ := hr.at_label pre post htr
  have hi := inv_of_run hdpop hpre
  obtain ⟨seen, hreq⟩ := require_of_step hstep
  obtain ⟨tok, jkt, proof, hraw, hv, hconf, hjkt, hproof, -⟩ :=
    Sessions.Authenticator.require_ok hreq
  obtain ⟨hgp, hgt⟩ : d.proofSigned t r.dpop = true ∧ d.tokenSigned t tok = true := by
    simpa [Deployment.unforged, hraw] using hg
  obtain ⟨x, part₀, part₁, part₂, hx, hvalid, hsplit, hsame, hc, hxsig⟩ :=
    origin_of_verify hi hv hgt
  obtain ⟨o, ho, -⟩ := Dpop.verify_ok hproof
  obtain ⟨hopen, hcheck⟩ := Dpop.inspect_ok ho
  obtain ⟨hhtm, -, -, -, hbound⟩ := Dpop.checkProof_ok hcheck
  have htok : tok ≠ [] := by
    rintro rfl
    cases hsplit
  obtain ⟨hath, hthumb⟩ := hbound htok
  have hkeep : c.confirm = some ⟨Dpop.thumbprint d.platform.toCrypto x.proof.key⟩ := by
    refine (hjson _ _ hc fun k hk b hb => ?_).trans rfl
    obtain rfl := Option.some.inj hk
    exact Base64.encode_lt _ b hb
  have hkey : o.key = x.proof.key := by
    obtain rfl : jkt = _ := congrArg Tokens.Confirm.jkt (Option.some.inj (hconf.symm.trans hkeep))
    refine Dpop.jwkText_injective (hcoll _ ?_ _ ?_ (Base64.encode_injective hthumb))
    · refine List.mem_flatMap.mpr ⟨.request clk q r (some c), by simp [htr], ?_⟩
      simp [Deployment.keysOf, hopen, Except.toOption]
    · refine List.mem_flatMap.mpr ⟨x.event, by simp [htr, hx], ?_⟩
      simp [Deployment.keysOf, Origin.event, hvalid.opened, Except.toOption]
  exact ⟨tok, x, o, part₀, part₁, part₂, hraw, hsplit, hx, hvalid, hsame, hc, ⟨jkt, hconf, hjkt⟩,
    hopen, hkey, hi.logged _ hxsig, hi.logged _ (mem_signed_of_opened hgp hopen), hath, hhtm⟩

/-! ## A worked exchange -/
namespace Worked
open Sessions.Worked (moment)

def deployment : Deployment where
  endpoint := ⟨Sessions.Worked.signer, ascii "api", true, Sessions.Worked.issuer⟩
  route := Sessions.Worked.service.auth
  platform := Sessions.Worked.platform
  codec := Sessions.Worked.codec
  route_key := rfl

def grant : Oidc.Grant :=
  ⟨ascii "app", ascii "https://app.example/cb", ascii "openid", [], Sessions.Worked.codeChallenge,
    ascii "u1", ascii "t1", moment 0⟩

def codeRaw : Bytes := List.replicate 32 7

def exchange : Oidc.TokenRequest where
  method := ascii "POST"
  form := some [(ascii "grant_type", ascii "authorization_code"),
    (ascii "code", Base64.encode codeRaw), (ascii "client_id", ascii "app"),
    (ascii "redirect_uri", ascii "https://app.example/cb"),
    (ascii "code_verifier", Sessions.Worked.codeVerifier)]
  dpop := Sessions.Worked.loginProof

/-- The client signs a proof, gets its token, signs another proof and is let through. -/
def history : List Event :=
  [.sign Sessions.Worked.clientKey Sessions.Worked.loginProofSigning,
    .code (moment 0) (moment 0) (some codeRaw) grant,
    .token ⟨moment 0, moment 0, moment 0, moment 0⟩ (some Sessions.Worked.jtiRaw) [] exchange
      (some Sessions.Worked.token),
    .sign Sessions.Worked.clientKey Sessions.Worked.proofSigning]

def last : Event :=
  .request ⟨moment 610, moment 610, moment 610⟩ Sessions.Revocations.new.isRevoked
    Sessions.Worked.request (some Sessions.Worked.claims)

end Worked

theorem sender_constrained_worked :
    SenderBound Worked.deployment Worked.history Sessions.Worked.request Sessions.Worked.claims := by
  obtain ⟨s, hr⟩ := Run.exists_of_foldlM_guarded
    (fun s e => Worked.deployment.unforged s e) Worked.deployment.step State.start
    (Worked.history ++ [Worked.last]) (by decide +kernel)
  have hcoll : Worked.deployment.CollisionFree (Worked.history ++ [Worked.last]) := by
    have hkeys : (Worked.history ++ [Worked.last]).flatMap Worked.deployment.keysOf =
        [Sessions.Worked.clientKey, Sessions.Worked.clientKey] := by decide +kernel
    simp [Deployment.CollisionFree, hkeys]
  have hjson : KeepsConfirm Worked.deployment.codec := by
    intro c c' h _
    rw [Sessions.Worked.codec_claims h]
  exact sender_constrained rfl hjson hcoll hr rfl

end AiAuth.Gateway
