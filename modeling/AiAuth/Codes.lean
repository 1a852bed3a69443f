import AiAuth.Library.Base64
import AiAuth.Library.Dict
import AiAuth.Library.Time

/-!
# Authorization codes

A code is a one-time handle for a grant. Redeeming removes it before anything is
checked, so a wrong client or a wrong redirect burns the code.
-/
namespace AiAuth.Oidc
open Library

inductive CodeError
  | unknown
  | client
  | redirect
  deriving DecidableEq

def codeTTL : ℤ := 60 * Time.second

/-- What an authorization code stands for. -/
structure Grant where
  clientID : Bytes
  redirectURI : Bytes
  scope : Bytes
  nonce : Bytes
  codeChallenge : Bytes
  subjectID : Bytes
  tenantID : Bytes
  authTime : ℤ
  deriving DecidableEq

/-- A stored grant with its expiry. -/
structure CodeEntry where
  grant : Grant
  expiresAt : ℤ
  deriving DecidableEq

structure CodeStore where
  codes : Dict Bytes CodeEntry

namespace CodeStore

def new : CodeStore := ⟨Dict.empty⟩

def evictExpiredLocked (s : CodeStore) (now : ℤ) : CodeStore :=
  ⟨s.codes.retain fun _ e => !(e.expiresAt < now)⟩

/-- Mint a code. The clock is read twice: for the sweep and then for the expiry. -/
def issue (s : CodeStore) (sweepAt now : ℤ) (raw : Option Bytes) (g : Grant) :
    Option Bytes × CodeStore :=
  match raw with
  | none => (none, s)
  | some raw =>
    let code := Base64.encode raw
    (some code, ⟨(s.evictExpiredLocked sweepAt).codes.set code ⟨g, now + codeTTL⟩⟩)

/-- Consume a code. Removal comes before every check. -/
def redeem (s : CodeStore) (now : ℤ) (code clientID redirectURI : Bytes) :
    Except CodeError Grant × CodeStore :=
  match s.codes.get code with
  | none => (.error .unknown, s)
  | some e =>
    let left : CodeStore := ⟨s.codes.remove code⟩
    if e.expiresAt < now then (.error .unknown, left)
    else if e.grant.clientID ≠ clientID then (.error .client, left)
    else if e.grant.redirectURI ≠ redirectURI then (.error .redirect, left)
    else (.ok e.grant, left)

/-- After an issue, a code is the new one or was there before. -/
theorem get_of_issue {s s' : CodeStore} {sweepAt now : ℤ} {raw code code' : Bytes} {g : Grant}
    {e : CodeEntry} (h : s.issue sweepAt now (some raw) g = (some code, s'))
    (hget : s'.codes.get code' = some e) :
    (code' = Base64.encode raw ∧ e.grant = g) ∨ s.codes.get code' = some e := by
  unfold issue at h
  obtain ⟨-, rfl⟩ := Prod.mk.inj h
  rcases Dict.get_of_retain_set hget with ⟨hcode, rfl⟩ | hold
  · exact .inl ⟨hcode, rfl⟩
  · exact .inr hold

/-- After an attempt there is nothing under the code, and the others are as they were. -/
theorem get_redeem {s : CodeStore} {now : ℤ} {code clientID redirectURI : Bytes} (code' : Bytes) :
    (s.redeem now code clientID redirectURI).2.codes.get code' =
      if code' = code then none else s.codes.get code' := by
  unfold redeem
  split
  next h =>
    split_ifs with heq
    · exact heq ▸ h
    · rfl
  · dsimp only
    split_ifs <;> simp_all [Dict.get_remove]

/-- A redeemed grant was stored under the code, and for this client and redirect. -/
theorem redeem_ok {s s' : CodeStore} {now : ℤ} {code clientID redirectURI : Bytes} {g : Grant}
    (h : s.redeem now code clientID redirectURI = (.ok g, s')) :
    (∃ e, s.codes.get code = some e ∧ e.grant = g) ∧ g.clientID = clientID ∧
      g.redirectURI = redirectURI ∧ s'.codes = s.codes.remove code := by
  unfold redeem at h
  split at h
  · cases h
  next e he =>
    dsimp only at h
    split_ifs at h with hexp hc hr
    · cases h
    · cases h
    · cases h
    · obtain ⟨hg, rfl⟩ := Prod.mk.inj h
      obtain rfl := Except.ok.inj hg
      exact ⟨⟨e, he, rfl⟩, not_not.mp hc, not_not.mp hr, rfl⟩

end CodeStore
end AiAuth.Oidc
