import AiAuth.Library.Jws
import AiAuth.Library.Json
import AiAuth.Messages

/-!
# Assertions

The checks an assertion passes, cheapest first. The expectations come from the gateway's own
ceremony; parsing, hashing and the signature scheme are what the program is given.
-/
namespace AiAuth.Webauthn
open Library CryptoService

inductive Rejection
  | malformedClientData
  | wrongType
  | challengeMismatch
  | originMismatch
  | rpIdMismatch
  | userNotPresent
  | signCountRegression
  | malformedAuthenticatorData
  | unsupportedKey
  | badSignature
  deriving DecidableEq

def Rejection.code : Rejection → Bytes
  | malformedClientData => ascii "malformed_client_data"
  | wrongType => ascii "wrong_type"
  | challengeMismatch => ascii "challenge_mismatch"
  | originMismatch => ascii "origin_mismatch"
  | rpIdMismatch => ascii "rp_id_mismatch"
  | userNotPresent => ascii "user_not_present"
  | signCountRegression => ascii "sign_count_regression"
  | malformedAuthenticatorData => ascii "malformed_authenticator_data"
  | unsupportedKey => ascii "unsupported_key"
  | badSignature => ascii "bad_signature"

structure Verified where
  newSignCount : ℕ
  deriving DecidableEq

/-- What the verifier is told. -/
structure Expectations where
  rpID : Bytes
  origin : Bytes
  challenge : Bytes
  storedSignCount : ℕ
  deriving DecidableEq

/-- The JSON parser, and the readers of keys and of the two signature formats. -/
structure Platform extends Crypto where
  parseJson : Bytes → Option Json
  keyFromSec1 : Bytes → Option P256.Point
  sigFromDer : Bytes → Option (ℕ × ℕ)
  sigFromSlice : Bytes → Option (ℕ × ℕ)

/-- The digest of the relying party, a byte of flags, and the counter. -/
def authDataMin : ℕ := 37

/-- Bit zero of the flags: somebody touched the authenticator. -/
def userPresent (authData : Bytes) : Bool := authData.getD 32 0 &&& 1 ≠ 0

/-- The counter an authenticator reports. -/
def signCount (authData : Bytes) : ℕ := ofBigEndian ((authData.drop 33).take 4)

/-- A string member of the client data. -/
def member (client : Json) (key : Bytes) : Option Bytes := (client.get key).bind Json.asStr

/-- A signature in DER, or else as its two numbers. -/
def readSignature (P : Platform) (s : Bytes) : Option (ℕ × ℕ) :=
  (P.sigFromDer s).or (P.sigFromSlice s)

/-- The checks of the client data: type, challenge and origin. -/
def checkClientData (P : Platform) (exp : Expectations) (clientDataJSON : Bytes) :
    Except Rejection Unit :=
  match P.parseJson clientDataJSON with
  | none => .error .malformedClientData
  | some client =>
    if member client (ascii "type") ≠ some (ascii "webauthn.get") then .error .wrongType
    else match (member client (ascii "challenge")).bind Base64.decodeStrict with
      | none => .error .malformedClientData
      | some challenge =>
        if challenge ≠ exp.challenge then .error .challengeMismatch
        else if member client (ascii "origin") ≠ some exp.origin then .error .originMismatch
        else .ok ()

/-- The checks of the authenticator data: shape, relying party, presence and counter. -/
def checkAuthData (P : Platform) (exp : Expectations) (authData : Bytes) :
    Except Rejection Unit :=
  if authData.length < authDataMin then .error .malformedAuthenticatorData
  else if authData.take 32 ≠ P.sha256 exp.rpID then .error .rpIdMismatch
  else if !userPresent authData then .error .userNotPresent
  else if signCount authData ≠ 0 ∧ signCount authData ≤ exp.storedSignCount then
    .error .signCountRegression
  else .ok ()

/-- The signature is over the authenticator data and the digest of the client data. -/
def checkSignature (P : Platform) (publicKey : Bytes) (a : Assertion) : Except Rejection Unit :=
  match P.keyFromSec1 publicKey with
  | none => .error .unsupportedKey
  | some key =>
    match readSignature P a.signature with
    | none => .error .badSignature
    | some (r, s) =>
      let signed := a.authenticatorData ++ P.sha256 a.clientDataJSON
      if P.verify key (P.sha256 signed) r s then .ok () else .error .badSignature

def verify (P : Platform) (exp : Expectations) (publicKey : Bytes) (a : Assertion) :
    Except Rejection Verified :=
  match checkClientData P exp a.clientDataJSON with
  | .error e => .error e
  | .ok () =>
    match checkAuthData P exp a.authenticatorData with
    | .error e => .error e
    | .ok () =>
      match checkSignature P publicKey a with
      | .error e => .error e
      | .ok () => .ok ⟨signCount a.authenticatorData⟩

/-- A counter that is not zero has moved past the stored one. -/
theorem verify_count {P : Platform} {exp : Expectations} {publicKey : Bytes} {a : Assertion}
    {v : Verified} (h : verify P exp publicKey a = .ok v) :
    v.newSignCount = signCount a.authenticatorData ∧
      (v.newSignCount ≠ 0 → exp.storedSignCount < v.newSignCount) := by
  unfold verify at h
  split at h
  · cases h
  · split at h
    · cases h
    next hauth =>
      split at h
      · cases h
      · obtain rfl := Except.ok.inj h
        refine ⟨rfl, fun hne => ?_⟩
        unfold checkAuthData at hauth
        split_ifs at hauth with hlen hrp hup hcount
        exact not_le.mp fun hle => hcount ⟨hne, hle⟩

end AiAuth.Webauthn
