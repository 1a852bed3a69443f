import AiAuth.Library.Dict
import AiAuth.Library.Jws
import AiAuth.Library.Time
import AiAuth.Library.Url

/-!
# Proofs of possession

A proof is a signed object that carries its own public key. Checking one is pure
given the clock; only the replay cache, asked last, has a state.
-/
namespace AiAuth.Dpop
open Library

def maxAge : ℤ := 60 * Time.second

/-- `jwk` is the raw text of the member, empty if there is none. -/
structure Header where
  typ : Bytes
  alg : Bytes
  jwk : Bytes
  deriving DecidableEq

structure JWK where
  kty : Bytes
  crv : Bytes
  x : Bytes
  y : Bytes
  d : Bytes
  deriving DecidableEq

structure Payload where
  jti : Bytes
  htm : Bytes
  htu : Bytes
  iat : ℤ
  ath : Bytes
  deriving DecidableEq

/-- Comparison under case folding. Outside ASCII it depends on the Unicode tables. -/
structure Folding where
  equalFold : Bytes → Bytes → Bool
  equalFold_refl : ∀ s, equalFold s s = true
  equalFold_nil : ∀ s, equalFold [] s = true → s = []
  equalFold_ascii : ∀ s t, (∀ b ∈ s, b < 128) → (∀ b ∈ t, b < 128) →
    equalFold s t = Url.asciiFold s t

/-- The folding that leaves everything else as it is. -/
def Folding.ascii : Folding where
  equalFold := Url.asciiFold
  equalFold_refl := Url.asciiFold_refl
  equalFold_nil := Url.asciiFold_nil
  equalFold_ascii _ _ _ _ := rfl

/-- The library functions a verifier calls: hashing and signatures, reading JSON, and
comparison under case folding. -/
structure Platform extends Crypto, Folding where
  unmarshalHeader : Bytes → Option Header
  unmarshalJWK : Bytes → Option JWK
  unmarshalPayload : Bytes → Option Payload

inductive ProofError
  | malformed
  | type
  | algorithm
  | keyMissing
  | keyInvalid
  | signature
  | method
  | uri
  | stale
  | replay
  | tokenBinding
  | tokenHash
  deriving DecidableEq

/-! ## Keys -/

/-- A usable key is a P-256 point and comes without its private half. -/
def parseJWK (P : Platform) (raw : Bytes) : Except ProofError P256.Point :=
  match P.unmarshalJWK raw with
  | none => .error .keyInvalid
  | some k =>
    if k.d ≠ [] then .error .keyInvalid
    else if k.kty ≠ ascii "EC" ∨ k.crv ≠ ascii "P-256" then .error .keyInvalid
    else match Base64.decode k.x, Base64.decode k.y with
      | some x, some y =>
        if x.length ≠ 32 ∨ y.length ≠ 32 then .error .keyInvalid
        else if h : P256.isOnCurve (ofBigEndian x) (ofBigEndian y) = true then
          .ok ⟨ofBigEndian x, ofBigEndian y, h⟩
        else .error .keyInvalid
      | _, _ => .error .keyInvalid

/-- The canonical text of a key: members in order, no white space. -/
def jwkText (k : P256.Point) : Bytes :=
  ascii "\x7b\"crv\":\"P-256\",\"kty\":\"EC\",\"x\":\"" ++ Base64.encode (bigEndian 32 k.x) ++
    ascii "\",\"y\":\"" ++ Base64.encode (bigEndian 32 k.y) ++ ascii "\"\x7d"

def thumbprint (C : Crypto) (k : P256.Point) : Bytes := Base64.encode (C.sha256 (jwkText k))

/-- Different keys have different texts. -/
theorem jwkText_injective : Function.Injective jwkText := by
  intro k k' h
  have hlen : ∀ n, (Base64.encode (bigEndian 32 n)).length = 43 := fun n => by
    rw [Base64.encode_length, bigEndian_length]
  simp only [jwkText, List.append_assoc] at h
  have h := List.append_cancel_left h
  obtain ⟨hx, h⟩ := List.append_inj h (by rw [hlen, hlen])
  have h := List.append_cancel_left h
  obtain ⟨hy, -⟩ := List.append_inj h (by rw [hlen, hlen])
  exact P256.Point.ext_bytes (Base64.encode_injective hx) (Base64.encode_injective hy)

/-! ## The pure checks -/

/-- `htu` against the request URI: scheme and host up to case, path as it is. -/
def sameURI (P : Platform) (htu actual : Bytes) : Bool :=
  match Url.parse htu, Url.parse actual with
  | some a, some b => P.equalFold a.scheme b.scheme && P.equalFold a.host b.host && a.path == b.path
  | _, _ => false

/-- A proof whose signature verifies: its signing input, the key it carries and what it
says. -/
structure Opened where
  signing : Bytes
  key : P256.Point
  payload : Payload
  deriving DecidableEq

/-- From the text of a proof to its verified contents. -/
def openProof (P : Platform) (proofJWT : Bytes) : Except ProofError Opened :=
  match splitOn (ch '.') proofJWT with
  | [part₀, part₁, part₂] =>
    if part₀ = [] ∨ part₁ = [] ∨ part₂ = [] then .error .malformed
    else match (Base64.decode part₀).bind P.unmarshalHeader with
      | none => .error .malformed
      | some h =>
        if h.typ ≠ ascii "dpop+jwt" then .error .type
        else if h.alg ≠ ascii "ES256" then .error .algorithm
        else if h.jwk = [] then .error .keyMissing
        else match parseJWK P h.jwk with
          | .error err => .error err
          | .ok pub =>
            match (Base64.decode part₁).bind P.unmarshalPayload, Base64.decode part₂ with
            | some p, some sig =>
              if sig.length ≠ 64 then .error .malformed
              else if Jws.verifySig P.toCrypto pub (Jws.signingInput part₀ part₁) sig then
                .ok ⟨Jws.signingInput part₀ part₁, pub, p⟩
              else .error .signature
            | _, _ => .error .malformed
  | _ => .error .malformed

/-- What a proof is checked against. The token is empty where there is none yet. -/
structure Expected where
  method : Bytes
  uri : Bytes
  accessToken : Bytes
  tokenJKT : Bytes
  deriving DecidableEq

/-- Within `maxAge` of the clock, on either side. -/
def isFresh (now : ℤ) (p : Payload) : Bool :=
  let age := Time.sub now (Time.ofUnix p.iat)
  !(maxAge < age || age < -maxAge)

/-- All checks that follow the signature, short of the replay cache. -/
def checkProof (P : Platform) (now : ℤ) (e : Expected) (o : Opened) : Except ProofError Unit :=
  if !P.equalFold o.payload.htm e.method then .error .method
  else if !sameURI P o.payload.htu e.uri then .error .uri
  else if !isFresh now o.payload then .error .stale
  else if e.accessToken ≠ [] ∧ o.payload.ath ≠ Base64.encode (P.sha256 e.accessToken) then
    .error .tokenHash
  else if e.accessToken ≠ [] ∧ thumbprint P.toCrypto o.key ≠ e.tokenJKT then .error .tokenBinding
  else if o.payload.jti = [] then .error .malformed
  else .ok ()

/-- Everything a verification does before it turns to the replay cache. -/
def inspect (P : Platform) (now : ℤ) (proofJWT : Bytes) (e : Expected) :
    Except ProofError Opened :=
  match openProof P proofJWT with
  | .error err => .error err
  | .ok o =>
    match checkProof P now e o with
    | .error err => .error err
    | .ok () => .ok o

theorem inspect_ok {P : Platform} {now : ℤ} {proofJWT : Bytes} {e : Expected} {o : Opened}
    (h : inspect P now proofJWT e = .ok o) :
    openProof P proofJWT = .ok o ∧ checkProof P now e o = .ok () := by
  unfold inspect at h
  split at h
  · cases h
  next o' ho =>
    split at h
    · cases h
    next hc =>
      obtain rfl := Except.ok.inj h
      exact ⟨ho, hc⟩

/-- Each check of an accepted proof, as a fact. -/
theorem checkProof_ok {P : Platform} {now : ℤ} {e : Expected} {o : Opened}
    (h : checkProof P now e o = .ok ()) :
    P.equalFold o.payload.htm e.method = true ∧ sameURI P o.payload.htu e.uri = true ∧
      isFresh now o.payload = true ∧ o.payload.jti ≠ [] ∧
      (e.accessToken ≠ [] → o.payload.ath = Base64.encode (P.sha256 e.accessToken) ∧
        thumbprint P.toCrypto o.key = e.tokenJKT) := by
  unfold checkProof at h
  split_ifs at h with hm hu hf ha hb hj
  simp only [Bool.not_eq_true', Bool.not_eq_false] at hm hu hf
  exact ⟨hm, hu, hf, hj, fun ht => ⟨by_contra fun hn => ha ⟨ht, hn⟩,
    by_contra fun hn => hb ⟨ht, hn⟩⟩⟩

/-- What an opened proof was read from. -/
theorem openProof_ok {P : Platform} {proofJWT : Bytes} {o : Opened}
    (h : openProof P proofJWT = .ok o) :
    ∃ part₀ part₁ hd sig, ch '.' ∉ part₀ ∧ o.signing = Jws.signingInput part₀ part₁ ∧
      (Base64.decode part₀).bind P.unmarshalHeader = some hd ∧ parseJWK P hd.jwk = .ok o.key ∧
      (Base64.decode part₁).bind P.unmarshalPayload = some o.payload ∧
      Jws.verifySig P.toCrypto o.key o.signing sig = true := by
  unfold openProof at h
  split at h
  next part₀ part₁ part₂ hsplit =>
    split_ifs at h
    split at h
    · cases h
    next hd hhd =>
      split_ifs at h
      split at h
      · cases h
      next pub hpub =>
        split at h
        next p sig hp _ =>
          split_ifs at h with hlen hsig
          obtain rfl := Except.ok.inj h
          have hdot : ch '.' ∉ part₀ := notMem_of_mem_splitOn (hsplit ▸ List.mem_cons_self)
          exact ⟨part₀, part₁, hd, sig, hdot, rfl, hhd, hpub, hp, hsig⟩
        · cases h
  · cases h

/-- A proof made of its parts opens to them, when its signature verifies. -/
theorem openProof_compact {P : Platform} {hb pb sig : Bytes} {raw : Bytes} {k : P256.Point}
    {p : Payload} (hhb : hb ≠ []) (hpb : pb ≠ []) (hraw : raw ≠ [])
    (hh : P.unmarshalHeader hb = some ⟨ascii "dpop+jwt", ascii "ES256", raw⟩)
    (hk : parseJWK P raw = .ok k) (hp : P.unmarshalPayload pb = some p) (hlen : sig.length = 64)
    (hsig : Jws.verifySig P.toCrypto k
      (Jws.signingInput (Base64.encode hb) (Base64.encode pb)) sig = true) :
    openProof P (Jws.compact (Jws.signingInput (Base64.encode hb) (Base64.encode pb)) sig) =
      .ok ⟨Jws.signingInput (Base64.encode hb) (Base64.encode pb), k, p⟩ := by
  have hne : sig ≠ [] := fun h => by simp [h] at hlen
  simp only [openProof, Jws.splitOn_compact, Base64.encode_ne_nil hhb, Base64.encode_ne_nil hpb,
    Base64.encode_ne_nil hne, Base64.decode_encode, Option.bind_some, hh, hp, hk, hraw, hlen, hsig,
    or_self, ne_eq, not_true_eq_false, if_true, if_false]

/-- A signing input determines the key and the payload; only the signature is left open. -/
theorem openProof_signing_inj {P : Platform} {jwt jwt' : Bytes} {o o' : Opened}
    (h : openProof P jwt = .ok o) (h' : openProof P jwt' = .ok o') (hs : o.signing = o'.signing) :
    o = o' := by
  obtain ⟨p₀, p₁, hd, -, hdot, hsign, hhd, hkey, hpay, -⟩ := openProof_ok h
  obtain ⟨q₀, q₁, hd', -, hdot', hsign', hhd', hkey', hpay', -⟩ := openProof_ok h'
  obtain ⟨rfl, rfl⟩ := Jws.signingInput_inj hdot hdot' (hsign.symm.trans (hs.trans hsign'))
  obtain rfl : hd = hd' := Option.some.inj (hhd.symm.trans hhd')
  have hk : o.key = o'.key := Except.ok.inj (hkey.symm.trans hkey')
  have hp : o.payload = o'.payload := Option.some.inj (hpay.symm.trans hpay')
  cases o
  cases o'
  simp_all

lemma fresh_iff {now : ℤ} {p : Payload} :
    isFresh now p = true ↔
      now ≤ Time.ofUnix p.iat + maxAge ∧ Time.ofUnix p.iat ≤ now + maxAge := by
  have hlate : maxAge < Time.sub now (Time.ofUnix p.iat) ↔ maxAge < now - Time.ofUnix p.iat :=
    Time.lt_sub_iff (by decide) (by decide)
  have hearly : Time.sub now (Time.ofUnix p.iat) < -maxAge ↔ now - Time.ofUnix p.iat < -maxAge :=
    Time.sub_lt_iff (by decide) (by decide)
  simp only [isFresh, Bool.not_eq_true', Bool.or_eq_false_iff, decide_eq_false_iff_not, hlate,
    hearly]
  omega

/-! ## The replay cache -/

/-- Identifiers of accepted proofs with the time until which each is remembered. The cache
never outgrows its bound. -/
structure ReplayCache where
  items : Dict Bytes ℤ
  max : ℕ
  bounded : items.size ≤ max

namespace ReplayCache

def new (max : ℕ) : ReplayCache := ⟨Dict.empty, max, Nat.zero_le _⟩

def capacity : ℕ := 100000

/-- What a full cache keeps: the entries whose time has not passed. -/
def purged (c : ReplayCache) (now : ℤ) : Dict Bytes ℤ :=
  if c.max ≤ c.items.size then c.items.retain fun _ exp => !(exp < now) else c.items

lemma purged_size_le (c : ReplayCache) (now : ℤ) : (c.purged now).size ≤ c.max := by
  unfold purged
  split_ifs
  · exact (Dict.size_retain_le _ _).trans c.bounded
  · exact c.bounded

/-- Record an identifier and report whether it was new. A cache that stays full refuses. -/
def admitJTI (c : ReplayCache) (now : ℤ) (jti : Bytes) (keepUntil : ℤ) : Bool × ReplayCache :=
  if (c.items.get jti).isSome then (false, c)
  else if h : c.max ≤ (c.purged now).size then (false, ⟨c.purged now, c.max, c.purged_size_le now⟩)
  else (true, ⟨(c.purged now).set jti keepUntil, c.max,
    (Dict.size_set_le _ _ _).trans (Nat.succ_le_of_lt (not_le.mp h))⟩)

/-- Whether admitting an identifier makes the cache purge. -/
def purges (c : ReplayCache) (jti : Bytes) : Bool :=
  (c.items.get jti).isNone && c.max ≤ c.items.size

section admitJTI
variable {c : ReplayCache} {now exp keepUntil : ℤ} {jti k : Bytes}

/-- An admitted identifier is new, and is remembered. -/
theorem admit_true (h : (c.admitJTI now jti keepUntil).1 = true) :
    c.items.get jti = none ∧ (c.admitJTI now jti keepUntil).2.items.get jti = some keepUntil := by
  unfold admitJTI at h ⊢
  split_ifs at h ⊢ with hmem hfull
  exact ⟨by simpa using hmem, Dict.get_set_self _ _ _⟩

/-- An identifier is forgotten only by a purge that comes after its time. -/
theorem get_admit (h : c.items.get k = some exp) (hexp : now ≤ exp ∨ c.purges jti = false) :
    (c.admitJTI now jti keepUntil).2.items.get k = some exp := by
  have hpurged : (c.items.get jti).isSome ∨ (c.purged now).get k = some exp := by
    unfold purged
    split_ifs with hfull
    · rcases hexp with hexp | hexp
      · exact .inr (Dict.get_retain.mpr ⟨h, by simpa using hexp⟩)
      · left
        simpa [purges, hfull, Option.isSome_iff_ne_none] using hexp
    · exact .inr h
  unfold admitJTI
  split_ifs with hmem hfull
  · exact h
  · exact hpurged.resolve_left hmem
  · have hne : k ≠ jti := by
      rintro rfl
      simp [h] at hmem
    exact (Dict.get_set_ne _ hne _).trans (hpurged.resolve_left hmem)

/-- With room for it, a new identifier is added and nothing is purged. -/
theorem admit_room (now keepUntil : ℤ) (h : c.items.get jti = none) (hroom : c.items.size < c.max) :
    (c.admitJTI now jti keepUntil).1 = true ∧
      (c.admitJTI now jti keepUntil).2.items = c.items.set jti keepUntil ∧
      (c.admitJTI now jti keepUntil).2.max = c.max := by
  have hpurged : c.purged now = c.items := if_neg (not_le.mpr hroom)
  simp [admitJTI, h, hpurged, not_le.mpr hroom]

/-- An entry past its time makes room for a new identifier. -/
theorem admit_of_expired (h : c.items.get jti = none) (hk : c.items.get k = some exp)
    (hexp : exp < now) : (c.admitJTI now jti keepUntil).1 = true := by
  have hsize : (c.purged now).size < c.max := by
    unfold purged
    split_ifs with hfull
    · exact (Dict.size_retain_lt hk (by simpa using hexp)).trans_le c.bounded
    · exact not_le.mp hfull
  simp [admitJTI, h, not_le.mpr hsize]

/-- A purge forgets what is past its time. -/
theorem get_admit_expired (hp : c.purges jti = true) (hk : c.items.get k = some exp)
    (hexp : exp < now) : (c.admitJTI now jti keepUntil).2.items.get k = none := by
  simp only [purges, Bool.and_eq_true, Option.isNone_iff_eq_none, decide_eq_true_eq] at hp
  have hgone : (c.purged now).get k = none := by
    rw [purged, if_pos hp.2, Option.eq_none_iff_forall_ne_some]
    intro e he
    obtain ⟨hget, hkeep⟩ := Dict.get_retain.mp he
    obtain rfl : exp = e := Option.some.inj (hk.symm.trans hget)
    simp [hexp] at hkeep
  have hne : k ≠ jti := by
    rintro rfl
    rw [hk] at hp
    cases hp.1
  unfold admitJTI
  rw [if_neg (by simp [hp.1])]
  split_ifs
  · exact hgone
  · exact (Dict.get_set_ne _ hne _).trans hgone

end admitJTI

end ReplayCache

/-! ## Verification -/

structure Proof where
  thumbprint : Bytes
  jti : Bytes
  deriving DecidableEq

/-- Check a proof. The cache reads its own clock, after the verifier has read its. -/
def verify (P : Platform) (seen : ReplayCache) (now admitAt : ℤ) (proofJWT : Bytes)
    (e : Expected) : Except ProofError Proof × ReplayCache :=
  match inspect P now proofJWT e with
  | .error err => (.error err, seen)
  | .ok o =>
    match seen.admitJTI admitAt o.payload.jti (now + 2 * maxAge) with
    | (false, seen) => (.error .replay, seen)
    | (true, seen) => (.ok ⟨thumbprint P.toCrypto o.key, o.payload.jti⟩, seen)

/-- A verified proof passed the pure checks, and its key is the one reported. -/
theorem verify_ok {P : Platform} {seen seen' : ReplayCache} {now admitAt : ℤ} {proofJWT : Bytes}
    {e : Expected} {proof : Proof} (h : verify P seen now admitAt proofJWT e = (.ok proof, seen')) :
    ∃ o, inspect P now proofJWT e = .ok o ∧ proof.thumbprint = thumbprint P.toCrypto o.key := by
  unfold verify at h
  split at h
  · cases h
  next o ho =>
    split at h
    · cases h
    · obtain ⟨hp, -⟩ := Prod.mk.inj h
      exact ⟨o, ho, by rw [← Except.ok.inj hp]⟩

end AiAuth.Dpop
