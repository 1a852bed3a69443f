import AiAuth.Dpop
import AiAuth.Http
import AiAuth.Tokens

/-!
# Live sessions

Revocation in memory, at three levels, and the middleware that lets a request reach
a protected handler only with a live, bound and unrevoked token.
-/
namespace AiAuth.Sessions
open Library

/-! ## Revocation -/

/-- Killed token ids with the time after which each may be forgotten, and the cutoffs of
subjects and tenants. -/
structure Revocations where
  tokens : Dict Bytes ℤ
  subjects : Dict (Bytes × Bytes) ℤ
  tenants : Dict Bytes ℤ

namespace Revocations

def new : Revocations := ⟨Dict.empty, Dict.empty, Dict.empty⟩

/-- Drop the token ids whose time has passed. Cutoffs are kept. -/
def sweepLocked (r : Revocations) (now : ℤ) : Revocations :=
  { r with tokens := r.tokens.retain fun _ forget => !(forget < now) }

def revokeToken (r : Revocations) (now : ℤ) (jti : Bytes) (forgetAfter : ℤ) : Revocations :=
  sweepLocked { r with tokens := r.tokens.set jti forgetAfter } now

def revokeSubject (r : Revocations) (now : ℤ) (tenantID subjectID : Bytes) : Revocations :=
  { r with subjects := r.subjects.set (tenantID, subjectID) now }

def revokeTenant (r : Revocations) (now : ℤ) (tenantID : Bytes) : Revocations :=
  { r with tenants := r.tenants.set tenantID now }

/-- Whether a cutoff catches a token: it was not issued after it. -/
def caughtBy (issuedAt : ℤ) : Option ℤ → Bool
  | none => false
  | some cutoff => !(cutoff < issuedAt)

@[simp] theorem caughtBy_some {issuedAt cutoff : ℤ} :
    caughtBy issuedAt (some cutoff) = true ↔ issuedAt ≤ cutoff := by
  simp [caughtBy]

def isRevoked (r : Revocations) (jti tenantID subjectID : Bytes) (issuedAt : ℤ) : Bool :=
  (r.tokens.get jti).isSome || caughtBy issuedAt (r.subjects.get (tenantID, subjectID)) ||
    caughtBy issuedAt (r.tenants.get tenantID)

theorem isRevoked_of_token {r : Revocations} {jti tenantID subjectID : Bytes} {issuedAt f : ℤ}
    (h : r.tokens.get jti = some f) : r.isRevoked jti tenantID subjectID issuedAt = true := by
  simp [isRevoked, h]

/-- A cutoff of the subject or of its tenant catches what happened at an instant. -/
def cutOff (r : Revocations) (tenantID subjectID : Bytes) (instant : ℤ) : Bool :=
  caughtBy instant (r.subjects.get (tenantID, subjectID)) ||
    caughtBy instant (r.tenants.get tenantID)

theorem cutOff_of_isRevoked {r : Revocations} {jti tenantID subjectID : Bytes} {issuedAt : ℤ}
    (h : r.isRevoked jti tenantID subjectID issuedAt = false) :
    r.cutOff tenantID subjectID issuedAt = false := by
  simp only [isRevoked, Bool.or_assoc, Bool.or_eq_false_iff] at h
  simp [cutOff, h]

/-- A cutoff catches everything before what it catches. -/
theorem cutOff_mono {r : Revocations} {tenantID subjectID : Bytes} {x y : ℤ} (hle : x ≤ y)
    (h : r.cutOff tenantID subjectID y = true) : r.cutOff tenantID subjectID x = true := by
  have hcaught : ∀ c, caughtBy y c = true → caughtBy x c = true := by
    intro c hc
    cases c with
    | none => cases hc
    | some c => exact caughtBy_some.mpr (hle.trans (caughtBy_some.mp hc))
  simp only [cutOff, Bool.or_eq_true] at h ⊢
  exact h.imp (hcaught _) (hcaught _)

/-- A mark outlives a call of `revokeToken` when it is the one set, or was there, and its
time has not passed. -/
theorem revokeToken_tokens {r : Revocations} {now f g : ℤ} {jti j : Bytes} :
    (r.revokeToken now jti f).tokens.get j = some g ↔
      (r.tokens.set jti f).get j = some g ∧ now ≤ g := by
  simp [revokeToken, sweepLocked, Dict.get_retain]

end Revocations

/-- The question the middleware asks of a revocation store. -/
abbrev RevocationChecker := Bytes → Bytes → Bytes → ℤ → Bool

/-- The answer for a verified token; its issue time is read at whole seconds. -/
def RevocationChecker.ofClaims (q : RevocationChecker) (c : Tokens.Claims) : Bool :=
  q c.jti c.tenantID c.subject (Time.ofUnix c.issuedAt)

/-! ## The middleware -/

/-- What the middleware reads of a request: the decoded path and two headers. -/
structure Request where
  method : Bytes
  path : Bytes
  authorization : Bytes
  dpop : Bytes
  deriving DecidableEq

/-- The token of an `Authorization` header with the DPoP scheme. -/
def dpopToken (P : Dpop.Platform) (header : Bytes) : Option Bytes :=
  let scheme := ascii "dpop "
  if header.length ≤ scheme.length ∨ !P.equalFold (header.take scheme.length) scheme then none
  else
    let token := trimSpace (header.drop scheme.length)
    if token = [] then none else some token

structure Authenticator where
  tokens : Tokens.Verifier
  audience : Bytes
  baseURL : Bytes

/-- The clock as one request reads it: for the token, for the proof, in the cache. -/
structure Readings where
  token : ℤ
  proof : ℤ
  cache : ℤ
  deriving DecidableEq

namespace Authenticator

def challenge (code desc : Bytes) : Response :=
  ⟨401, [(ascii "WWW-Authenticate", ascii "DPoP algs=\"ES256\", error=\"" ++ code ++
    ascii "\", error_description=\"" ++ desc ++ ascii "\""),
    (ascii "Cache-Control", ascii "no-store")], .none⟩

/-- What the proof of a request must be bound to. -/
def expected (a : Authenticator) (r : Request) (raw jkt : Bytes) : Dpop.Expected :=
  ⟨r.method, a.baseURL ++ r.path, raw, jkt⟩

/-- The checks before the revocation store is asked: of the token, and of its proof. -/
def authenticate (a : Authenticator) (P : Dpop.Platform) (J : Tokens.Codec)
    (seen : Dpop.ReplayCache) (clk : Readings) (r : Request) :
    Except Response (Bytes × Tokens.Claims) × Dpop.ReplayCache :=
  match dpopToken P r.authorization with
  | none =>
    (.error (challenge (ascii "invalid_token") (ascii "a DPoP-bound access token is required")),
      seen)
  | some raw =>
    match a.tokens.verify P.toCrypto J clk.token raw a.audience with
    | .error _ => (.error (challenge (ascii "invalid_token") (ascii "token is not valid")), seen)
    | .ok claims =>
      let jkt := (claims.confirm.map Tokens.Confirm.jkt).getD []
      if jkt = [] then
        (.error (challenge (ascii "invalid_token") (ascii "token is not sender-constrained")), seen)
      else if r.dpop = [] then
        (.error (challenge (ascii "invalid_dpop_proof") (ascii "a DPoP proof is required")), seen)
      else match Dpop.verify P seen clk.proof clk.cache r.dpop (a.expected r raw jkt) with
        | (.error _, seen) =>
          (.error (challenge (ascii "invalid_dpop_proof") (ascii "proof is not valid")), seen)
        | (.ok _, seen) => (.ok (raw, claims), seen)

/-- A request that comes as far as the store has a token and a proof by its key. -/
theorem authenticate_cases {a : Authenticator} {P : Dpop.Platform} {J : Tokens.Codec}
    {seen seen' : Dpop.ReplayCache} {clk : Readings} {r : Request} {raw : Bytes} {c : Tokens.Claims}
    (h : a.authenticate P J seen clk r = (.ok (raw, c), seen')) :
    ∃ jkt proof, dpopToken P r.authorization = some raw ∧
      a.tokens.verify P.toCrypto J clk.token raw a.audience = .ok c ∧
      c.confirm = some ⟨jkt⟩ ∧ jkt ≠ [] ∧
      Dpop.verify P seen clk.proof clk.cache r.dpop (a.expected r raw jkt) = (.ok proof, seen') := by
  unfold authenticate at h
  split at h
  · cases h
  next raw' hraw =>
    split at h
    · cases h
    next claims hv =>
      dsimp only at h
      split_ifs at h with hjkt hp
      · cases h
      · cases h
      · split at h
        · cases h
        next proof seen'' hd =>
          obtain ⟨hfound, rfl⟩ := Prod.mk.inj h
          obtain ⟨rfl, rfl⟩ := Prod.mk.inj (Except.ok.inj hfound)
          cases hconf : claims.confirm with
          | none => simp [hconf] at hjkt
          | some k =>
            obtain ⟨jkt⟩ := k
            simp only [hconf, Option.map_some, Option.getD_some] at hjkt hd
            exact ⟨jkt, proof, hraw, hv, rfl, hjkt, hd⟩

theorem authenticate_ok {a : Authenticator} {P : Dpop.Platform} {J : Tokens.Codec}
    {seen seen' : Dpop.ReplayCache} {clk : Readings} {r : Request} {raw : Bytes} {c : Tokens.Claims}
    (h : a.authenticate P J seen clk r = (.ok (raw, c), seen')) :
    a.tokens.verify P.toCrypto J clk.token raw a.audience = .ok c := by
  obtain ⟨-, -, -, hv, -⟩ := authenticate_cases h
  exact hv

/-- The claims of a token that is not revoked. -/
def admitUnrevoked (q : RevocationChecker) (claims : Tokens.Claims) : Except Response Tokens.Claims :=
  if q.ofClaims claims then
    .error (challenge (ascii "invalid_token") (ascii "token is not valid"))
  else .ok claims

/-- The claims the wrapped handler runs with, or the refusal. The revocation store is asked
last. -/
def require (a : Authenticator) (P : Dpop.Platform) (J : Tokens.Codec) (seen : Dpop.ReplayCache)
    (q : RevocationChecker) (clk : Readings) (r : Request) :
    Except Response Tokens.Claims × Dpop.ReplayCache :=
  match a.authenticate P J seen clk r with
  | (.error resp, seen) => (.error resp, seen)
  | (.ok found, seen) => (admitUnrevoked q found.2, seen)

/-- Every check a request has passed when the handler runs. -/
theorem require_ok {a : Authenticator} {P : Dpop.Platform} {J : Tokens.Codec}
    {seen seen' : Dpop.ReplayCache} {q : RevocationChecker} {clk : Readings} {r : Request}
    {c : Tokens.Claims} (h : a.require P J seen q clk r = (.ok c, seen')) :
    ∃ raw jkt proof, dpopToken P r.authorization = some raw ∧
      a.tokens.verify P.toCrypto J clk.token raw a.audience = .ok c ∧
      c.confirm = some ⟨jkt⟩ ∧ jkt ≠ [] ∧
      Dpop.verify P seen clk.proof clk.cache r.dpop (a.expected r raw jkt) = (.ok proof, seen') ∧
      q.ofClaims c = false := by
  unfold require at h
  split at h
  · cases h
  next found seen'' hauth =>
    obtain ⟨hkept, rfl⟩ := Prod.mk.inj h
    unfold admitUnrevoked at hkept
    split_ifs at hkept with hq
    obtain rfl := Except.ok.inj hkept
    obtain ⟨jkt, proof, hraw, hv, hconf, hjkt, hd⟩ := authenticate_cases hauth
    exact ⟨found.1, jkt, proof, hraw, hv, hconf, hjkt, hd, by simpa using hq⟩

end Authenticator
end AiAuth.Sessions
