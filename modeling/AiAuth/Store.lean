import AiAuth.Codes
import AiAuth.Sessions

/-!
# The Postgres stores

Codes and revocations as tables that every replica shares. A statement is atomic, and it fails
when a value cannot be stored or a key is taken. The adapters present the tables through the
interfaces of the in-memory stores.
-/
namespace AiAuth.Store
open Library

/-- What a `text` value can hold: UTF-8 without a zero byte. -/
def storable (text : Bytes) : Bool := isUtf8 text && !text.contains 0

/-- What a `timestamptz` value keeps of an instant: whole microseconds. -/
def timestamptz (t : ℤ) : ℤ := t / 1000 * 1000

theorem timestamptz_le (t : ℤ) : timestamptz t ≤ t := by
  simp only [timestamptz]
  omega

/-- An instant at the resolution of the database. -/
def Whole (t : ℤ) : Prop := timestamptz t = t

instance (t : ℤ) : Decidable (Whole t) := inferInstanceAs (Decidable (_ = _))

/-- A whole instant is not later than another one when it is not later than what is kept of it. -/
theorem Whole.le_timestamptz {t u : ℤ} (ht : Whole t) : t ≤ timestamptz u ↔ t ≤ u := by
  simp only [Whole, timestamptz] at *
  omega

theorem Whole.add_codeTTL {t : ℤ} (ht : Whole t) : Whole (t + Oidc.codeTTL) := by
  simp only [Whole, timestamptz, Oidc.codeTTL, Time.second] at *
  omega

/-! ## Codes -/

/-- The store's own copy of a grant. -/
structure Grant where
  clientID : Bytes
  redirectURI : Bytes
  scope : Bytes
  nonce : Bytes
  codeChallenge : Bytes
  subjectID : Bytes
  tenantID : Bytes
  authTime : ℤ

/-- A row of `gateway.auth_codes` without its key. -/
structure AuthCode where
  tenantID : Bytes
  subjectID : Bytes
  clientID : Bytes
  redirectURI : Bytes
  scope : Bytes
  nonce : Option Bytes
  codeChallenge : Bytes
  authTime : ℤ
  expiresAt : ℤ

inductive RedeemError
  | notFound
  | database

structure Codes where
  authCodes : Dict Bytes AuthCode

namespace Codes

def new : Codes := ⟨Dict.empty⟩

/-- Store a code, unless a value cannot be stored or the code is taken. -/
def insert (c : Codes) (code : Bytes) (g : Grant) (expiresAt : ℤ) : Option Codes :=
  if [code, g.tenantID, g.subjectID, g.clientID, g.redirectURI, g.scope, g.nonce,
      g.codeChallenge].all storable ∧ c.authCodes.get code = none then
    some ⟨c.authCodes.set code ⟨g.tenantID, g.subjectID, g.clientID, g.redirectURI, g.scope,
      some g.nonce, g.codeChallenge, timestamptz g.authTime, timestamptz expiresAt⟩⟩
  else none

/-- The columns a redemption scans into its grant. -/
def scan (row : AuthCode) : Grant :=
  { tenantID := row.tenantID, subjectID := row.subjectID, clientID := row.clientID,
    redirectURI := row.redirectURI, scope := row.scope, nonce := row.nonce.getD [],
    codeChallenge := row.codeChallenge, authTime := row.authTime }

/-- Consume a code. The row is deleted before the clock is read and anything is checked. -/
def redeem (c : Codes) (now : ℤ) (code clientID redirectURI : Bytes) :
    Except RedeemError Grant × Codes :=
  if !storable code then (.error .database, c)
  else match c.authCodes.get code with
    | none => (.error .notFound, c)
    | some row =>
      let left : Codes := ⟨c.authCodes.remove code⟩
      let g := scan row
      if row.expiresAt < now then (.error .notFound, left)
      else if g.clientID ≠ clientID ∨ g.redirectURI ≠ redirectURI then (.error .notFound, left)
      else (.ok g, left)

def deleteExpired (c : Codes) (now : ℤ) : Codes :=
  ⟨c.authCodes.retain fun _ row => !(row.expiresAt < now)⟩

/-- After an attempt the code has no row, and the other rows are as they were. -/
theorem get_redeem {c : Codes} {now : ℤ} {code clientID redirectURI : Bytes}
    (hcode : c.authCodes.get code ≠ none → storable code = true) (code' : Bytes) :
    (c.redeem now code clientID redirectURI).2.authCodes.get code' =
      if code' = code then none else c.authCodes.get code' := by
  cases hrow : c.authCodes.get code with
  | none =>
    have hstay : (c.redeem now code clientID redirectURI).2 = c := by
      unfold redeem
      rw [hrow]
      split_ifs <;> rfl
    rw [hstay]
    split_ifs with h
    · exact h ▸ hrow
    · rfl
  | some row =>
    have hleft : (c.redeem now code clientID redirectURI).2 = ⟨c.authCodes.remove code⟩ := by
      unfold redeem
      rw [hcode (by simp [hrow]), hrow]
      dsimp only
      split_ifs <;> first | rfl | contradiction
    rw [hleft, Dict.get_remove]

end Codes

inductive AdapterError
  | code (e : Oidc.CodeError)
  | database

namespace CodeAdapter

def toStore (g : Oidc.Grant) : Grant :=
  { clientID := g.clientID, redirectURI := g.redirectURI, scope := g.scope, nonce := g.nonce,
    codeChallenge := g.codeChallenge, subjectID := g.subjectID, tenantID := g.tenantID,
    authTime := g.authTime }

def ofStore (g : Grant) : Oidc.Grant :=
  { clientID := g.clientID, redirectURI := g.redirectURI, scope := g.scope, nonce := g.nonce,
    codeChallenge := g.codeChallenge, subjectID := g.subjectID, tenantID := g.tenantID,
    authTime := g.authTime }

/-- Mint a code and insert it; no code is handed out that was not stored. -/
def issue (c : Codes) (now : ℤ) (raw : Option Bytes) (g : Oidc.Grant) : Option Bytes × Codes :=
  match raw with
  | none => (none, c)
  | some raw =>
    let code := Base64.encode raw
    match c.insert code (toStore g) (now + Oidc.codeTTL) with
    | none => (none, c)
    | some c => (some code, c)

def redeem (c : Codes) (now : ℤ) (code clientID redirectURI : Bytes) :
    Except AdapterError Oidc.Grant × Codes :=
  match c.redeem now code clientID redirectURI with
  | (.error .notFound, c) => (.error (.code .unknown), c)
  | (.error .database, c) => (.error .database, c)
  | (.ok g, c) => (.ok (ofStore g), c)

theorem redeem_snd {c : Codes} {now : ℤ} {code clientID redirectURI : Bytes} :
    (redeem c now code clientID redirectURI).2 = (c.redeem now code clientID redirectURI).2 := by
  unfold redeem
  split <;> simp_all

end CodeAdapter

/-! ## Revocations -/

/-- Killed token ids and cutoffs; a tenant's cutoff is the row of the empty subject. -/
structure Revocations where
  revokedTokens : Dict Bytes ℤ
  cutoffs : Dict (Bytes × Bytes) ℤ

/-- The later one of a stored instant and a new one. -/
def greatest (stored : Option ℤ) (excluded : ℤ) : ℤ := stored.elim excluded (max · excluded)

theorem le_greatest (stored : Option ℤ) (excluded : ℤ) : excluded ≤ greatest stored excluded := by
  cases stored with
  | none => exact le_rfl
  | some t => exact le_max_right t excluded

theorem greatest_of_le {stored : Option ℤ} {excluded : ℤ}
    (h : ∀ t, stored = some t → t ≤ excluded) :
    greatest stored excluded = excluded := by
  cases stored with
  | none => rfl
  | some t => exact max_eq_right (h t rfl)

namespace Revocations

def new : Revocations := ⟨Dict.empty, Dict.empty⟩

def revokeToken (r : Revocations) (jti : Bytes) (forgetAfter : ℤ) : Option Revocations :=
  if storable jti then
    let forget := greatest (r.revokedTokens.get jti) (timestamptz forgetAfter)
    some { r with revokedTokens := r.revokedTokens.set jti forget }
  else none

def revokeSubject (r : Revocations) (now : ℤ) (tenantID subjectID : Bytes) : Option Revocations :=
  if storable tenantID ∧ storable subjectID then
    let cutoff := greatest (r.cutoffs.get (tenantID, subjectID)) now
    some { r with cutoffs := r.cutoffs.set (tenantID, subjectID) cutoff }
  else none

def revokeTenant (r : Revocations) (now : ℤ) (tenantID : Bytes) : Option Revocations :=
  r.revokeSubject now tenantID []

/-- Whether a stored cutoff catches a token of the given issue time. -/
def reaches (issuedAt : ℤ) (cutoff : Option ℤ) : Bool := cutoff.any fun c => timestamptz issuedAt ≤ c

def isRevoked (r : Revocations) (jti tenantID subjectID : Bytes) (issuedAt : ℤ) : Option Bool :=
  if [jti, tenantID, subjectID].all storable then
    some ((r.revokedTokens.get jti).isSome ||
      [subjectID, []].any fun s => reaches issuedAt (r.cutoffs.get (tenantID, s)))
  else none

def deleteExpired (r : Revocations) (now : ℤ) : Revocations :=
  { r with revokedTokens := r.revokedTokens.retain fun _ forget => !(forget < now) }

end Revocations

/-- The answer to the middleware: revoked, when the database has none. -/
def RevocationAdapter.isRevoked (r : Revocations) : Sessions.RevocationChecker :=
  fun jti tenantID subjectID issuedAt => (r.isRevoked jti tenantID subjectID issuedAt).getD true

end AiAuth.Store
