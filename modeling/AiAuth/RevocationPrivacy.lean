import AiAuth.SessionRuns
import AiAuth.Store

/-!
# What a thief learns about revocation

The revocation store is asked after token and proof have passed. A request without a proof by the
key of its token therefore gets the same answer from every store.
-/
namespace AiAuth.Dpop
open Library

/-- A verified proof carries an identifier that the cache did not know. -/
theorem verify_new {P : Platform} {seen seen' : ReplayCache} {now admitAt : ℤ} {proofJWT : Bytes}
    {e : Expected} {proof : Proof} (h : verify P seen now admitAt proofJWT e = (.ok proof, seen')) :
    ∃ o, inspect P now proofJWT e = .ok o ∧ seen.items.get o.payload.jti = none := by
  unfold verify at h
  split at h
  · cases h
  next o ho =>
    split at h
    · cases h
    next hadmit =>
      have hnew := congrArg Prod.fst hadmit
      exact ⟨o, ho, (ReplayCache.admit_true hnew).1⟩

end AiAuth.Dpop

namespace AiAuth.Sessions
open Library

/-- What answers the middleware: the maps in memory, or the adapter over a database that may
fail to answer. -/
inductive RevocationBackend
  | memory (r : Revocations)
  | postgres (r : Store.Revocations) (fails : Bool)

def RevocationBackend.checker : RevocationBackend → RevocationChecker
  | .memory r => r.isRevoked
  | .postgres r false => Store.RevocationAdapter.isRevoked r
  | .postgres _ true => fun _ _ _ _ => true

/-- A fresh and valid proof by one key: signed by that key, made for this request and this token,
within its time, and not seen before. -/
structure GoodProof (a : Authenticator) (P : Dpop.Platform) (seen : Dpop.ReplayCache)
    (clk : Readings) (r : Request) (raw jkt : Bytes) (o : Dpop.Opened) : Prop where
  opened : Dpop.openProof P r.dpop = .ok o
  key : Dpop.thumbprint P.toCrypto o.key = jkt
  method : P.equalFold o.payload.htm r.method = true
  uri : Dpop.sameURI P o.payload.htu (a.baseURL ++ r.path) = true
  fresh : Dpop.isFresh clk.proof o.payload = true
  token : o.payload.ath = Base64.encode (P.sha256 raw)
  named : o.payload.jti ≠ []
  unseen : seen.items.get o.payload.jti = none

namespace Authenticator

/-- The request brings a live token, and a good proof by the key that its `cnf` names. -/
def Proves (a : Authenticator) (P : Dpop.Platform) (J : Tokens.Codec) (seen : Dpop.ReplayCache)
    (clk : Readings) (r : Request) : Prop :=
  ∃ raw c jkt o, dpopToken P r.authorization = some raw ∧
    a.tokens.verify P.toCrypto J clk.token raw a.audience = .ok c ∧ c.confirm = some ⟨jkt⟩ ∧
    jkt ≠ [] ∧ GoodProof a P seen clk r raw jkt o

/-- A store refuses what another one lets through. -/
def RefusedAsRevoked (a : Authenticator) (P : Dpop.Platform) (J : Tokens.Codec)
    (seen : Dpop.ReplayCache) (store : RevocationBackend) (clk : Readings) (r : Request)
    (resp : Response) : Prop :=
  (a.require P J seen store.checker clk r).1 = .error resp ∧
    ∃ (other : RevocationBackend) (c : Tokens.Claims),
      (a.require P J seen other.checker clk r).1 = .ok c

section
variable {a : Authenticator} {P : Dpop.Platform} {J : Tokens.Codec} {seen : Dpop.ReplayCache}
  {clk : Readings} {r : Request} {raw : Bytes} {q q' : RevocationChecker} {resp : Response}

lemma dpopToken_ne_nil (h : dpopToken P r.authorization = some raw) : raw ≠ [] := by
  simp only [dpopToken] at h
  split_ifs at h with _ hne
  obtain rfl := Option.some.inj h
  exact hne

/-- A request that comes as far as the store has proved possession. -/
lemma proves_of_authenticate {found : Bytes × Tokens.Claims}
    (h : (a.authenticate P J seen clk r).1 = .ok found) : a.Proves P J seen clk r := by
  have hrequire : a.require P J seen (fun _ _ _ _ => false) clk r =
      (.ok found.2, (a.authenticate P J seen clk r).2) := by
    rw [require, ← Prod.mk.eta (p := a.authenticate P J seen clk r), h]
    rfl
  obtain ⟨raw, jkt, proof, hraw, htok, hcnf, hjkt, hproof, -⟩ := require_ok hrequire
  obtain ⟨o, ho, hnew⟩ := Dpop.verify_new hproof
  obtain ⟨hopen, hcheck⟩ := Dpop.inspect_ok ho
  obtain ⟨hmethod, huri, hfresh, hjti, hbound⟩ := Dpop.checkProof_ok hcheck
  obtain ⟨hath, hkey⟩ := hbound (dpopToken_ne_nil hraw)
  exact ⟨raw, found.2, jkt, o, hraw, htok, hcnf, hjkt,
    ⟨hopen, hkey, hmethod, huri, hfresh, hath, hjti, hnew⟩⟩

/-- Without a proof the store is not asked. -/
lemma require_of_not_proves (h : ¬ a.Proves P J seen clk r) :
    a.require P J seen q clk r = a.require P J seen q' clk r := by
  rw [require, require]
  cases hauth : a.authenticate P J seen clk r with
  | mk answer seen' =>
    cases answer with
    | error resp => rfl
    | ok found =>
      have hok : (a.authenticate P J seen clk r).1 = .ok found := by rw [hauth]
      exact absurd (proves_of_authenticate hok) h

/-- What one store lets through, another one refuses in one way. -/
lemma require_error_of_ok {c : Tokens.Claims} (hok : (a.require P J seen q' clk r).1 = .ok c)
    (herr : (a.require P J seen q clk r).1 = .error resp) :
    resp = challenge (ascii "invalid_token") (ascii "token is not valid") := by
  rw [require] at hok herr
  cases hauth : a.authenticate P J seen clk r with
  | mk answer seen' =>
    rw [hauth] at hok herr
    cases answer with
    | error e => cases hok
    | ok found =>
      simp only [admitUnrevoked] at herr
      split_ifs at herr
      exact (Except.error.inj herr).symm

lemma require_of_verify_error {err : Tokens.VerifyError}
    (hraw : dpopToken P r.authorization = some raw)
    (herr : a.tokens.verify P.toCrypto J clk.token raw a.audience = .error err) :
    (a.require P J seen q clk r).1 =
      .error (challenge (ascii "invalid_token") (ascii "token is not valid")) := by
  unfold require authenticate
  rw [hraw]
  simp only [herr]

end

end Authenticator

/-! ## Sequences of requests -/

/-- One request, what the clock reads for it, and the store it meets. -/
structure Visit where
  store : RevocationBackend
  clk : Readings
  request : Request

/-- The answers to a sequence of requests, and the replay cache they leave. -/
def serve (a : Authenticator) (P : Dpop.Platform) (J : Tokens.Codec) :
    Dpop.ReplayCache → List Visit → List (Except Response Tokens.Claims) × Dpop.ReplayCache
  | seen, [] => ([], seen)
  | seen, v :: vs =>
    let first := a.require P J seen v.store.checker v.clk v.request
    let rest := serve a P J first.2 vs
    (first.1 :: rest.1, rest.2)

/-- No request of the sequence brings a proof by the key of its token. -/
def NeverProves (a : Authenticator) (P : Dpop.Platform) (J : Tokens.Codec) :
    Dpop.ReplayCache → List Visit → Prop
  | _, [] => True
  | seen, v :: vs => ¬ a.Proves P J seen v.clk v.request ∧
    NeverProves a P J (a.require P J seen v.store.checker v.clk v.request).2 vs

/-- However the stores change in between, a thief who asks again and again sees the same. -/
theorem serve_of_neverProves {a : Authenticator} {P : Dpop.Platform} {J : Tokens.Codec}
    {vs vs' : List Visit}
    (hsame : List.Forall₂ (fun v v' => v.clk = v'.clk ∧ v.request = v'.request) vs vs')
    {seen : Dpop.ReplayCache} (h : NeverProves a P J seen vs) :
    serve a P J seen vs = serve a P J seen vs' := by
  induction hsame generalizing seen with
  | nil => rfl
  | @cons v v' vs vs' hv _ ih =>
    obtain ⟨hclk, hreq⟩ := hv
    have hfirst : a.require P J seen v.store.checker v.clk v.request =
        a.require P J seen v'.store.checker v'.clk v'.request := by
      rw [← hclk, ← hreq]
      exact Authenticator.require_of_not_proves h.1
    have hrest := ih h.2
    simp only [serve]
    rw [hrest, hfirst]

/-- Revocation is invisible to a thief: without a fresh and valid proof by the key of the token,
every store leads to the same response, the same run of the handler and the same replay cache. A
token that is refused as revoked is refused like one whose signature is wrong. -/
theorem revocation_invisible (a : Authenticator) (P : Dpop.Platform) (J : Tokens.Codec) :
    (∀ seen clk r, ¬ a.Proves P J seen clk r → ∀ store store' : RevocationBackend,
      a.require P J seen store.checker clk r = a.require P J seen store'.checker clk r) ∧
    ∀ seen store clk r resp, a.RefusedAsRevoked P J seen store clk r resp →
      ∀ seen' (store' : RevocationBackend) clk' r' raw',
        dpopToken P r'.authorization = some raw' →
        a.tokens.verify P.toCrypto J clk'.token raw' a.audience = .error .signature →
        (a.require P J seen' store'.checker clk' r').1 = .error resp := by
  refine ⟨fun seen clk r h store store' => Authenticator.require_of_not_proves h, ?_⟩
  intro seen store clk r resp hrevoked seen' store' clk' r' raw' hraw hsig
  obtain ⟨herr, other, c, hok⟩ := hrevoked
  rw [Authenticator.require_error_of_ok hok herr]
  exact Authenticator.require_of_verify_error hraw hsig

namespace Thief
open Worked (service platform codec request moment)

/-- All three readings of the clock, ten seconds after the token expired. -/
def now : Readings := ⟨moment 610, moment 610, moment 610⟩

/-- The cache after the client made the request of the worked session. -/
def seen : Dpop.ReplayCache :=
  ((Dpop.ReplayCache.new 4).admitJTI (moment 610) (ascii "p1") (moment 730)).2

def revoked : Revocations := Revocations.new.revokeToken (moment 100) Worked.claims.jti (moment 700)

/-- The claims of the token under another signature. -/
def forgedToken : Bytes := Jws.compact Worked.tokenSigning (Jws.sigBytes 1 1)

def forged : Request := { request with authorization := ascii "DPoP " ++ forgedToken }

/-- Whether every proof that the text opens to is one that the cache knows. -/
def replayed : Bool :=
  (Dpop.openProof platform request.dpop).toOption.all fun o => (seen.items.get o.payload.jti).isSome

lemma not_proves (h : replayed = true) : ¬ service.auth.Proves platform codec seen now request := by
  rintro ⟨raw, c, jkt, o, -, -, -, -, hgood⟩
  have hopen : (Dpop.openProof platform request.dpop).toOption = some o := by
    rw [hgood.opened, Except.toOption]
  have hseen := (Option.all_eq_true _ _).mp h o hopen
  rw [hgood.unseen] at hseen
  cases hseen

/-- What a store leads to for the request of the worked session. -/
def answer (store : RevocationBackend) : Except Response Tokens.Claims :=
  (service.auth.require platform codec (.new 4) store.checker now request).1

/-- What the verifier has against the forged token. -/
def verdict : Option Tokens.VerifyError :=
  match service.auth.tokens.verify platform.toCrypto codec now.token forgedToken
    service.auth.audience with
  | .ok _ => none
  | .error err => some err

lemma verify_forged (h : verdict = some .signature) :
    service.auth.tokens.verify platform.toCrypto codec now.token forgedToken
      service.auth.audience = .error .signature := by
  unfold verdict at h
  split at h
  · cases h
  next err herr =>
    obtain rfl := Option.some.inj h
    exact herr

end Thief

open Worked (service platform codec request) in
theorem revocation_invisible_thief :
    service.auth.require platform codec Thief.seen (RevocationBackend.memory Thief.revoked).checker
        Thief.now request =
      service.auth.require platform codec Thief.seen (RevocationBackend.postgres .new true).checker
        Thief.now request ∧
    ∃ resp, Thief.answer (.memory Thief.revoked) = .error resp ∧
      (service.auth.require platform codec (.new 4) (RevocationBackend.memory .new).checker
        Thief.now Thief.forged).1 = .error resp := by
  have hinvisible := revocation_invisible service.auth platform codec
  have hfacts : Thief.replayed = true ∧
      (Thief.answer (.memory Thief.revoked)).toOption = none ∧
      (Thief.answer (.memory .new)).toOption = some Worked.claims ∧
      dpopToken platform Thief.forged.authorization = some Thief.forgedToken ∧
      Thief.verdict = some .signature := by
    decide +kernel
  obtain ⟨hreplay, hrefused, hlive, hraw, hsig⟩ := hfacts
  constructor
  · exact hinvisible.1 Thief.seen Thief.now request (Thief.not_proves hreplay) _ _
  · cases hresp : Thief.answer (.memory Thief.revoked) with
    | ok c => rw [hresp] at hrefused; cases hrefused
    | error resp =>
      cases hok : Thief.answer (.memory .new) with
      | error e => rw [hok] at hlive; cases hlive
      | ok c =>
        refine ⟨resp, rfl, ?_⟩
        exact hinvisible.2 (.new 4) (.memory Thief.revoked) Thief.now request resp
          ⟨hresp, .memory .new, c, hok⟩ _ _ _ _ _ hraw (Thief.verify_forged hsig)

end AiAuth.Sessions
