import AiAuth.Library.Jws
import AiAuth.Library.Time

/-!
# Access tokens

Signed tokens whose payload may carry `cnf`, the thumbprint of the key the token is
bound to. How claims are written as JSON and read back is the codec's business.
-/
namespace AiAuth.Tokens
open Library

structure Confirm where
  jkt : Bytes
  deriving DecidableEq

/-- The access token payload. -/
structure Claims where
  issuer : Bytes
  subject : Bytes
  audience : Bytes
  tenantID : Bytes
  scope : Bytes
  issuedAt : ℤ
  notBefore : ℤ
  expiresAt : ℤ
  jti : Bytes
  confirm : Option Confirm
  deriving DecidableEq

structure Header where
  alg : Bytes
  typ : Bytes
  kid : Bytes
  deriving DecidableEq

/-- JSON text of the two parts, both ways. -/
structure Codec where
  marshalHeader : Header → Bytes
  marshalClaims : Claims → Bytes
  unmarshalHeader : Bytes → Option Header
  unmarshalClaims : Bytes → Option Claims

/-- A signer has a key, a key id and an issuer; without them it cannot be built. -/
structure Signer where
  key : P256.Point
  kid : Bytes
  iss : Bytes
  iss_ne : iss ≠ []
  kid_ne : kid ≠ []

inductive IssueError
  | ttl
  | random
  | sign
  deriving DecidableEq

namespace Signer

/-- The claims as they are signed: issuer, times and a token id filled in. -/
def stamp (s : Signer) (now ttl : ℤ) (jti : Bytes) (c : Claims) : Claims :=
  { c with
    issuer := s.iss
    issuedAt := Time.unix now
    notBefore := Time.unix now
    expiresAt := Time.unix (now + ttl)
    jti := jti }

/-- The text that is signed for stamped claims. -/
def signing (s : Signer) (J : Codec) (c : Claims) : Bytes :=
  Jws.signingInput (Base64.encode (J.marshalHeader ⟨ascii "ES256", ascii "at+jwt", s.kid⟩))
    (Base64.encode (J.marshalClaims c))

/-- The token id: the caller's, or one drawn from the random source. -/
def tokenID (given : Bytes) (raw : Option Bytes) : Option Bytes :=
  if given = [] then raw.map Base64.encode else some given

/-- Mint a token at `now`; `raw` and `seed` are what the random source answers. -/
def issue (s : Signer) (C : Crypto) (J : Codec) (now : ℤ) (raw : Option Bytes) (seed : Bytes)
    (c : Claims) (ttl : ℤ) : Except IssueError Bytes :=
  if ttl ≤ 0 then .error .ttl
  else match tokenID c.jti raw with
    | none => .error .random
    | some jti =>
      let signing := s.signing J (s.stamp now ttl jti c)
      match C.sign s.key (C.sha256 signing) seed with
      | none => .error .sign
      | some (r, sVal) => .ok (Jws.compact signing (Jws.sigBytes r sVal))

/-- An issued token is the signed text of stamped claims. -/
theorem issue_ok {s : Signer} {C : Crypto} {J : Codec} {now ttl : ℤ} {raw : Option Bytes}
    {seed token : Bytes} {c : Claims} (h : s.issue C J now raw seed c ttl = .ok token) :
    ∃ jti sig, tokenID c.jti raw = some jti ∧
      token = Jws.compact (s.signing J (s.stamp now ttl jti c)) sig := by
  unfold issue at h
  split_ifs at h
  split at h
  · cases h
  next jti hjti =>
    dsimp only at h
    split at h
    · cases h
    next r sVal _ => exact ⟨jti, _, hjti, (Except.ok.inj h).symm⟩

end Signer

/-- Split at the first two dots; all three parts must be there. -/
def splitThree (s : Bytes) : Option (Bytes × Bytes × Bytes) :=
  if ch '.' ∈ s ∧ ch '.' ∈ (cut (ch '.') s).2 then
    let first := (cut (ch '.') s).1
    let (second, third) := cut (ch '.') (cut (ch '.') s).2
    if first = [] ∨ second = [] ∨ third = [] then none else some (first, second, third)
  else none

inductive VerifyError
  | malformed
  | algorithm
  | signature
  | expired
  | notYet
  | issuer
  | audience
  deriving DecidableEq

/-- What a verifier expects of a token. -/
structure Verifier where
  key : P256.Point
  iss : Bytes
  leeway : ℤ
  iss_ne : iss ≠ []

def defaultLeeway : ℤ := 30 * Time.second

def Verifier.new (iss : Bytes) (key : P256.Point) (h : iss ≠ []) : Verifier :=
  ⟨key, iss, defaultLeeway, h⟩

namespace Verifier

/-- The checks that depend on the clock and on what the verifier expects. -/
def checkClaims (v : Verifier) (now : ℤ) (audience : Bytes) (c : Claims) :
    Except VerifyError Claims :=
  if Time.ofUnix c.expiresAt + v.leeway < now then .error .expired
  else if now < Time.ofUnix c.notBefore + Time.neg v.leeway then .error .notYet
  else if c.issuer ≠ v.iss then .error .issuer
  else if audience ≠ [] ∧ c.audience ≠ audience then .error .audience
  else .ok c

/-- Header, payload and signature, and only then the claims. -/
def verify (v : Verifier) (C : Crypto) (J : Codec) (now : ℤ) (token audience : Bytes) :
    Except VerifyError Claims :=
  match splitThree token with
  | none => .error .malformed
  | some (part₀, part₁, part₂) =>
    match (Base64.decode part₀).bind J.unmarshalHeader with
    | none => .error .malformed
    | some h =>
      if h.alg ≠ ascii "ES256" then .error .algorithm
      else match (Base64.decode part₁).bind J.unmarshalClaims, Base64.decode part₂ with
        | some c, some sig =>
          if sig.length ≠ 64 then .error .malformed
          else if Jws.verifySig C v.key (Jws.signingInput part₀ part₁) sig then
            v.checkClaims now audience c
          else .error .signature
        | _, _ => .error .malformed

theorem checkClaims_iff {v : Verifier} {now : ℤ} {audience : Bytes} {c c' : Claims} :
    v.checkClaims now audience c = .ok c' ↔
      c' = c ∧ now ≤ Time.ofUnix c.expiresAt + v.leeway ∧
        Time.ofUnix c.notBefore + Time.neg v.leeway ≤ now ∧ c.issuer = v.iss ∧
        (audience = [] ∨ c.audience = audience) := by
  unfold checkClaims
  constructor
  · intro h
    split_ifs at h with hexp hnbf hiss haud
    rw [not_and_or, not_not, not_not] at haud
    exact ⟨(Except.ok.inj h).symm, not_lt.mp hexp, not_lt.mp hnbf, not_not.mp hiss, haud⟩
  · rintro ⟨rfl, hexp, hnbf, hiss, haud⟩
    rw [if_neg (not_lt.mpr hexp), if_neg (not_lt.mpr hnbf), if_neg (not_not.mpr hiss), if_neg]
    exact fun h => haud.elim h.1 h.2

end Verifier

/-- The first two parts of a split have no dot, and the parts spell the token. -/
theorem splitThree_iff {s a b c : Bytes} : splitThree s = some (a, b, c) ↔
    s = a ++ ch '.' :: (b ++ ch '.' :: c) ∧ ch '.' ∉ a ∧ ch '.' ∉ b ∧ a ≠ [] ∧ b ≠ [] ∧ c ≠ [] := by
  constructor
  · intro h
    unfold splitThree at h
    split_ifs at h with hdots
    dsimp only at h
    split_ifs at h with hnil
    simp only [not_or] at hnil
    simp only [Option.some.injEq, Prod.mk.injEq] at h
    obtain ⟨rfl, rfl, rfl⟩ := h
    refine ⟨?_, cut_fst_notMem _ _, cut_fst_notMem _ _, hnil⟩
    rw [cut_join hdots.2, cut_join hdots.1]
  · rintro ⟨rfl, ha, hb, hnil⟩
    have hdot : ch '.' ∈ b ++ ch '.' :: c := List.mem_append_right _ List.mem_cons_self
    have hdots : ch '.' ∈ a ++ ch '.' :: (b ++ ch '.' :: c) :=
      List.mem_append_right _ List.mem_cons_self
    unfold splitThree
    rw [cut_append ha, if_pos ⟨hdots, hdot⟩]
    dsimp only
    rw [cut_append hb, if_neg]
    simpa [not_or] using hnil

namespace Verifier

/-- A token that verifies is three parts, of which the signature covers the first two and
the second spells the claims. -/
theorem verify_ok {v : Verifier} {C : Crypto} {J : Codec} {now : ℤ} {token audience : Bytes}
    {c : Claims} (h : v.verify C J now token audience = .ok c) :
    ∃ part₀ part₁ part₂ sig, splitThree token = some (part₀, part₁, part₂) ∧
      (Base64.decode part₁).bind J.unmarshalClaims = some c ∧ Base64.decode part₂ = some sig ∧
      Jws.verifySig C v.key (Jws.signingInput part₀ part₁) sig = true ∧
      v.checkClaims now audience c = .ok c := by
  unfold verify at h
  split at h
  · cases h
  next part₀ part₁ part₂ hsplit =>
    split at h
    · cases h
    next hd hhd =>
      split_ifs at h with halg
      split at h
      next c₀ sig hc hs =>
        split_ifs at h with hlen hsig
        obtain ⟨rfl, -⟩ := checkClaims_iff.mp h
        exact ⟨part₀, part₁, part₂, sig, hsplit, hc, hs, hsig, h⟩
      · cases h

end Verifier
end AiAuth.Tokens
