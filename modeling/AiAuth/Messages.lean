import AiAuth.Library.Bytes

/-!
# Messages of the Guard

What the gateway and the Guard exchange. Enumerations travel as numbers.
-/
namespace AiAuth.CryptoService
open Library

inductive Purpose
  | unspecified
  | passkeyLogin
  | rowEncrypt
  | rowDecrypt
  | blindIndex
  deriving DecidableEq

namespace Purpose

/-- The enumeration's number on the wire. -/
def ofInt : ℤ → Option Purpose
  | 0 => some unspecified
  | 1 => some passkeyLogin
  | 2 => some rowEncrypt
  | 3 => some rowDecrypt
  | 4 => some blindIndex
  | _ => none

/-- The name in debug output. -/
def debug : Purpose → Bytes
  | unspecified => ascii "Unspecified"
  | passkeyLogin => ascii "PasskeyLogin"
  | rowEncrypt => ascii "RowEncrypt"
  | rowDecrypt => ascii "RowDecrypt"
  | blindIndex => ascii "BlindIndex"

end Purpose

structure RequestContext where
  tenantID : Bytes
  subjectID : Bytes
  purpose : ℤ
  requestID : Bytes
  deriving DecidableEq

/-- The declared purpose. A number outside the enumeration reads as unspecified. -/
def RequestContext.getPurpose (ctx : RequestContext) : Purpose :=
  (Purpose.ofInt ctx.purpose).getD .unspecified

/-- A registered key as it is handed to the Guard. -/
structure StoredCredential where
  cosePublicKey : Bytes
  signCount : ℕ
  deriving DecidableEq

/-- What an authenticator hands over. -/
structure Assertion where
  authenticatorData : Bytes
  clientDataJSON : Bytes
  signature : Bytes
  deriving DecidableEq

structure VerifyAssertionRequest where
  context : Option RequestContext
  rpID : Bytes
  expectedOrigin : Bytes
  expectedChallenge : Bytes
  credential : Option StoredCredential
  assertion : Option Assertion
  deriving DecidableEq

/-- The verdict's number for an assertion that verifies. -/
def verdictVerified : ℤ := 1

def verdictRejected : ℤ := 2

structure VerifyAssertionResponse where
  verdict : ℤ
  reason : Bytes
  newSignCount : ℕ
  deriving DecidableEq

structure EncryptFieldRequest where
  context : Option RequestContext
  plaintext : Bytes
  wrappedDek : Bytes

structure EncryptFieldResponse where
  ciphertext : Bytes
  wrappedDek : Bytes
  deriving DecidableEq

structure DecryptFieldRequest where
  context : Option RequestContext
  ciphertext : Bytes
  wrappedDek : Bytes

structure DecryptFieldResponse where
  plaintext : Bytes
  deriving DecidableEq

structure BlindIndexRequest where
  context : Option RequestContext
  input : Bytes

structure BlindIndexResponse where
  index : Bytes
  deriving DecidableEq

end AiAuth.CryptoService
