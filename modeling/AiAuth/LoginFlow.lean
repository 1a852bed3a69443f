import AiAuth.Library.OneTime
import AiAuth.Login
import AiAuth.TokenEndpoint

/-!
# The code flow as a system

Any number of requests to the authorization endpoint, the two login endpoints and the token
endpoint. Every locked section is one step, and so is the call to the Guard. A step is labelled
with the clock it reads, the random bytes it draws and what comes out of it.
-/
namespace AiAuth.Flow
open Library Oidc Login CryptoService

/-- The handlers of one gateway. -/
structure Gateway where
  authorize : Authorize
  ceremony : Ceremony
  token : Token
  platform : Dpop.Platform
  codec : Tokens.Codec

/-- How far a finish request has come. -/
inductive Finish
  | taken (req : FinishRequest) (challenge : Bytes)
  | found (req : FinishRequest) (challenge : Bytes) (cred : Credential) (assertion : Assertion)
  | verified (req : FinishRequest) (cred : Credential) (count : ℕ)
  | counted (req : FinishRequest) (cred : Credential)
  | granted (cred : Credential) (authz : AuthzRequest) (since : ℤ)
  | ended
  deriving DecidableEq

/-- How far a token request has come. -/
inductive Exchange
  | redeemed (req : TokenRequest) (g : Grant)
  | confirmed (g : Grant) (confirm : Option Tokens.Confirm)
  | ended
  deriving DecidableEq

structure State where
  clock : ℤ
  pending : PendingStore
  challenges : Challenges
  credentials : Credentials
  codes : CodeStore
  seen : Dpop.ReplayCache
  drawn : List Bytes
  finishes : Dict ℕ Finish
  exchanges : Dict ℕ Exchange

def State.start (clock : ℤ) (credentials : Credentials) : State :=
  ⟨clock, .new, .new, credentials, .new, .new Dpop.ReplayCache.capacity, [], Dict.empty, Dict.empty⟩

/-- The first two are whole requests; `n` and `k` name a finish and a token request, `id` is the
credential that the Guard is asked about. -/
inductive Event
  | authorize (t : ℤ) (raw : Option Bytes) (params : Url.Values)
  | begin (t : ℤ) (raw : Option Bytes) (rid : Bytes)
  | finish (n : ℕ) (t : ℤ) (body : Option FinishRequest) (challenge : Option Bytes)
  | lookup (n : ℕ)
  | verify (n : ℕ) (id uuid : Bytes) (ask : Ask) (answer : Option VerifyAssertionResponse)
  | update (n : ℕ)
  | take (n : ℕ) (t : ℤ) (rid : Bytes) (authz : Option AuthzRequest)
  | issue (n : ℕ) (authTime sweepAt t : ℤ) (raw : Option Bytes) (g : Grant)
  | redeem (k : ℕ) (t : ℤ) (req : TokenRequest) (g : Option Grant)
  | confirm (k : ℕ) (proofAt t : ℤ)
  | mint (k : ℕ) (t : ℤ) (raw : Option Bytes) (seed : Bytes) (token : Option Bytes)

namespace Finish

/-! A failed section ends the request. -/

def afterTake : Except Response (FinishRequest × Bytes) → Finish
  | .ok (req, challenge) => .taken req challenge
  | .error _ => .ended

def afterLookup (req : FinishRequest) (challenge : Bytes) :
    Except Response (Credential × Assertion) → Finish
  | .ok (cred, assertion) => .found req challenge cred assertion
  | .error _ => .ended

def afterVerify (req : FinishRequest) (cred : Credential) : Except Response ℕ → Finish
  | .ok count => .verified req cred count
  | .error _ => .ended

def afterPending (cred : Credential) (since : ℤ) : Except Response AuthzRequest → Finish
  | .ok authz => .granted cred authz since
  | .error _ => .ended

end Finish

namespace Exchange

def afterRedeem (req : TokenRequest) : Except Response Grant → Exchange
  | .ok g => .redeemed req g
  | .error _ => .ended

def afterConfirm (g : Grant) : Except Response (Option Tokens.Confirm) → Exchange
  | .ok confirm => .confirmed g confirm
  | .error _ => .ended

end Exchange

/-- Random bytes are new. -/
def State.fresh (s : State) (raw : Option Bytes) : Bool := raw.all fun b => b ∉ s.drawn

def State.draw (s : State) (raw : Option Bytes) : List Bytes := raw.toList ++ s.drawn

namespace Gateway

/-- The first section of a token request: the form, the code and its verifier. -/
def redeem (w : Gateway) (codes : CodeStore) (t : ℤ) (req : TokenRequest) :
    Except Response Grant × CodeStore :=
  match Token.parse req with
  | .error resp => (.error resp, codes)
  | .ok f => Token.redeem w.platform.toCrypto codes t f

/-! The state after each section. -/

def onAuthorize (w : Gateway) (s : State) (t : ℤ) (raw : Option Bytes) (params : Url.Values) :
    State :=
  { s with
    clock := t
    pending := (w.authorize.serveHTTP s.pending t raw params).2
    drawn := s.draw raw }

def onBegin (w : Gateway) (s : State) (t : ℤ) (raw : Option Bytes) (rid : Bytes) : State :=
  { s with
    clock := t
    challenges := (w.ceremony.begin s.challenges t raw rid).2
    drawn := s.draw raw }

def onFinish (s : State) (n : ℕ) (t : ℤ) (body : Option FinishRequest) : State :=
  let res := Ceremony.takeChallenge s.challenges t body
  { s with clock := t, challenges := res.2, finishes := s.finishes.set n (.afterTake res.1) }

def onLookup (s : State) (n : ℕ) (req : FinishRequest) (challenge : Bytes) : State :=
  let res := Ceremony.lookup s.credentials req
  { s with finishes := s.finishes.set n (.afterLookup req challenge res) }

def onVerify (s : State) (n : ℕ) (uuid : Bytes) (ask : Ask)
    (answer : Option VerifyAssertionResponse) (req : FinishRequest) (cred : Credential) : State :=
  let res := Ceremony.judge (verifyPasskey (fun _ => answer) uuid ask)
  { s with finishes := s.finishes.set n (.afterVerify req cred res) }

def onUpdate (s : State) (n : ℕ) (req : FinishRequest) (cred : Credential) (count : ℕ) : State :=
  { s with
    credentials := Ceremony.persist s.credentials cred count
    finishes := s.finishes.set n (.counted req cred) }

def onTake (s : State) (n : ℕ) (t : ℤ) (rid : Bytes) (cred : Credential) : State :=
  let res := Ceremony.takePending s.pending t rid
  { s with clock := t, pending := res.2, finishes := s.finishes.set n (.afterPending cred t res.1) }

def onIssue (s : State) (n : ℕ) (sweepAt t : ℤ) (raw : Option Bytes) (authz : AuthzRequest)
    (g : Grant) : State :=
  { s with
    clock := t
    codes := (Ceremony.issueCode s.codes sweepAt t raw authz g).2
    drawn := s.draw raw
    finishes := s.finishes.set n .ended }

def onRedeem (w : Gateway) (s : State) (k : ℕ) (t : ℤ) (req : TokenRequest) : State :=
  let res := w.redeem s.codes t req
  { s with clock := t, codes := res.2, exchanges := s.exchanges.set k (.afterRedeem req res.1) }

def onConfirm (w : Gateway) (s : State) (k : ℕ) (proofAt t : ℤ) (req : TokenRequest) (g : Grant) :
    State :=
  let res := w.token.confirm w.platform s.seen proofAt t req
  { s with clock := t, seen := res.2, exchanges := s.exchanges.set k (.afterConfirm g res.1) }

def onMint (s : State) (k : ℕ) (t : ℤ) (raw : Option Bytes) : State :=
  { s with clock := t, drawn := s.draw raw, exchanges := s.exchanges.set k .ended }

/-- The last section of a token request that mints a token. -/
def mint (w : Gateway) (t : ℤ) (raw : Option Bytes) (seed : Bytes) (g : Grant)
    (confirm : Option Tokens.Confirm) : Option Bytes :=
  (w.token.mint w.platform.toCrypto w.codec t raw seed g confirm).toOption

def step (w : Gateway) (s : State) : Event → Option State
  | .authorize t raw params =>
    if s.clock ≤ t ∧ s.fresh raw then some (w.onAuthorize s t raw params) else none
  | .begin t raw rid => if s.clock ≤ t ∧ s.fresh raw then some (w.onBegin s t raw rid) else none
  | .finish n t body challenge =>
    if s.clock ≤ t ∧ s.finishes.get n = none ∧
        (Ceremony.takeChallenge s.challenges t body).1.toOption.map Prod.snd = challenge then
      some (onFinish s n t body)
    else none
  | .lookup n =>
    match s.finishes.get n with
    | some (.taken req challenge) => some (onLookup s n req challenge)
    | _ => none
  | .verify n id uuid ask answer =>
    match s.finishes.get n with
    | some (.found req challenge cred assertion) =>
      if cred.id = id ∧ w.ceremony.ask challenge cred assertion = ask then
        some (onVerify s n uuid ask answer req cred)
      else none
    | _ => none
  | .update n =>
    match s.finishes.get n with
    | some (.verified req cred count) => some (onUpdate s n req cred count)
    | _ => none
  | .take n t rid authz =>
    match s.finishes.get n with
    | some (.counted req cred) =>
      if s.clock ≤ t ∧ req.rid = rid ∧
          (Ceremony.takePending s.pending t rid).1.toOption = authz then
        some (onTake s n t rid cred)
      else none
    | _ => none
  | .issue n authTime sweepAt t raw g =>
    match s.finishes.get n with
    | some (.granted cred authz since) =>
      if since ≤ authTime ∧ authTime ≤ sweepAt ∧ s.clock ≤ sweepAt ∧ sweepAt ≤ t ∧ s.fresh raw ∧
          Ceremony.grant cred authz authTime = g then
        some (onIssue s n sweepAt t raw authz g)
      else none
    | _ => none
  | .redeem k t req g =>
    if s.clock ≤ t ∧ s.exchanges.get k = none ∧ (w.redeem s.codes t req).1.toOption = g then
      some (w.onRedeem s k t req)
    else none
  | .confirm k proofAt t =>
    match s.exchanges.get k with
    | some (.redeemed req g) =>
      if proofAt ≤ t ∧ s.clock ≤ t then some (w.onConfirm s k proofAt t req g) else none
    | _ => none
  | .mint k t raw seed token =>
    match s.exchanges.get k with
    | some (.confirmed g confirm) =>
      if s.clock ≤ t ∧ s.fresh raw ∧ w.mint t raw seed g confirm = token then
        some (onMint s k t raw)
      else none
    | _ => none

end Gateway

section redeem
variable {w : Gateway} {codes : CodeStore} {t : ℤ} {req : TokenRequest}

/-- A redeemed grant was stored under the code of the form, and fits the form. -/
theorem Gateway.redeem_ok {g : Grant} (h : (w.redeem codes t req).1 = .ok g) :
    ∃ f e, Token.parse req = .ok f ∧ codes.codes.get f.code = some e ∧ e.grant = g ∧
      g.clientID = f.clientID ∧ g.redirectURI = f.redirectURI ∧
      Base64.encode (w.platform.sha256 f.verifier) = g.codeChallenge := by
  unfold Gateway.redeem at h
  split at h
  · cases h
  next f hf =>
    obtain ⟨hredeem, hpkce⟩ := Token.redeem_ok (Prod.ext h rfl)
    obtain ⟨⟨e, he, hg⟩, hclient, hredirect, -⟩ := CodeStore.redeem_ok hredeem
    exact ⟨f, e, hf, he, hg, hclient, hredirect, hpkce⟩

/-- The code of the form is gone, and the others are as they were. -/
theorem Gateway.get_redeem {f : ExchangeForm} (hf : Token.parse req = .ok f) (code : Bytes) :
    (w.redeem codes t req).2.codes.get code =
      if code = f.code then none else codes.codes.get code := by
  unfold Gateway.redeem
  rw [hf]
  dsimp only
  rw [Token.redeem_snd, CodeStore.get_redeem]

/-- No code appears or changes. -/
theorem Gateway.redeem_get {code : Bytes} {e : CodeEntry}
    (h : (w.redeem codes t req).2.codes.get code = some e) : codes.codes.get code = some e := by
  cases hf : Token.parse req with
  | error resp => simpa [Gateway.redeem, hf] using h
  | ok f =>
    rw [Gateway.get_redeem hf] at h
    split_ifs at h
    exact h

end redeem

open Gateway in
/-- What a step can do, one constructor for each section. -/
inductive Moves (w : Gateway) (s : State) : Event → State → Prop
  | authorize {t raw params} : s.clock ≤ t → s.fresh raw = true →
    Moves w s (.authorize t raw params) (w.onAuthorize s t raw params)
  | begin {t raw rid} : s.clock ≤ t → s.fresh raw = true →
    Moves w s (.begin t raw rid) (w.onBegin s t raw rid)
  | finish {n t body} : s.clock ≤ t → s.finishes.get n = none →
    Moves w s (.finish n t body
      ((Ceremony.takeChallenge s.challenges t body).1.toOption.map Prod.snd)) (onFinish s n t body)
  | lookup {n req challenge} : s.finishes.get n = some (.taken req challenge) →
    Moves w s (.lookup n) (onLookup s n req challenge)
  | verify {n uuid answer req challenge cred assertion} :
    s.finishes.get n = some (.found req challenge cred assertion) →
    Moves w s (.verify n cred.id uuid (w.ceremony.ask challenge cred assertion) answer)
      (onVerify s n uuid (w.ceremony.ask challenge cred assertion) answer req cred)
  | update {n req cred count} : s.finishes.get n = some (.verified req cred count) →
    Moves w s (.update n) (onUpdate s n req cred count)
  | take {n t req cred} : s.clock ≤ t → s.finishes.get n = some (.counted req cred) →
    Moves w s (.take n t req.rid (Ceremony.takePending s.pending t req.rid).1.toOption)
      (onTake s n t req.rid cred)
  | issue {n authTime sweepAt t raw cred authz since} :
    s.finishes.get n = some (.granted cred authz since) → since ≤ authTime → authTime ≤ sweepAt →
    s.clock ≤ sweepAt → sweepAt ≤ t → s.fresh raw = true →
    Moves w s (.issue n authTime sweepAt t raw (Ceremony.grant cred authz authTime))
      (onIssue s n sweepAt t raw authz (Ceremony.grant cred authz authTime))
  | redeem {k t req} : s.clock ≤ t → s.exchanges.get k = none →
    Moves w s (.redeem k t req (w.redeem s.codes t req).1.toOption) (w.onRedeem s k t req)
  | confirm {k proofAt t req g} : s.exchanges.get k = some (.redeemed req g) → proofAt ≤ t →
    s.clock ≤ t → Moves w s (.confirm k proofAt t) (w.onConfirm s k proofAt t req g)
  | mint {k t raw seed g confirm} : s.exchanges.get k = some (.confirmed g confirm) →
    s.clock ≤ t → s.fresh raw = true →
    Moves w s (.mint k t raw seed (w.mint t raw seed g confirm)) (onMint s k t raw)

theorem moves_of_step {w : Gateway} {s s' : State} {e : Event} (h : w.step s e = some s') :
    Moves w s e s' := by
  cases e with
  | authorize t raw params =>
    simp only [Gateway.step] at h
    split_ifs at h with hg
    exact Option.some.inj h ▸ .authorize hg.1 hg.2
  | begin t raw rid =>
    simp only [Gateway.step] at h
    split_ifs at h with hg
    exact Option.some.inj h ▸ .begin hg.1 hg.2
  | finish n t body challenge =>
    simp only [Gateway.step] at h
    split_ifs at h with hg
    obtain ⟨hclock, hnew, rfl⟩ := hg
    exact Option.some.inj h ▸ .finish hclock hnew
  | lookup n =>
    simp only [Gateway.step] at h
    split at h
    next req challenge hn => exact Option.some.inj h ▸ .lookup hn
    · cases h
  | verify n id uuid ask answer =>
    simp only [Gateway.step] at h
    split at h
    next req challenge cred assertion hn =>
      split_ifs at h with hg
      obtain ⟨rfl, rfl⟩ := hg
      exact Option.some.inj h ▸ .verify hn
    · cases h
  | update n =>
    simp only [Gateway.step] at h
    split at h
    next req cred count hn => exact Option.some.inj h ▸ .update hn
    · cases h
  | take n t rid authz =>
    simp only [Gateway.step] at h
    split at h
    next req cred hn =>
      split_ifs at h with hg
      obtain ⟨hclock, rfl, rfl⟩ := hg
      exact Option.some.inj h ▸ .take hclock hn
    · cases h
  | issue n authTime sweepAt t raw g =>
    simp only [Gateway.step] at h
    split at h
    next cred authz since hn =>
      split_ifs at h with hg
      obtain ⟨hsince, hauth, hclock, ht, hfresh, rfl⟩ := hg
      exact Option.some.inj h ▸ .issue hn hsince hauth hclock ht hfresh
    · cases h
  | redeem k t req g =>
    simp only [Gateway.step] at h
    split_ifs at h with hg
    obtain ⟨hclock, hnew, rfl⟩ := hg
    exact Option.some.inj h ▸ .redeem hclock hnew
  | confirm k proofAt t =>
    simp only [Gateway.step] at h
    split at h
    next req g hk =>
      split_ifs at h with hg
      exact Option.some.inj h ▸ .confirm hk hg.1 hg.2
    · cases h
  | mint k t raw seed token =>
    simp only [Gateway.step] at h
    split at h
    next g confirm hk =>
      split_ifs at h with hg
      obtain ⟨hclock, hfresh, rfl⟩ := hg
      exact Option.some.inj h ▸ .mint hk hclock hfresh
    · cases h

end AiAuth.Flow
