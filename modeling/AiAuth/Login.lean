import AiAuth.Authorize
import AiAuth.Codes
import AiAuth.Messages

/-!
# The passkey ceremony

A challenge is issued for a pending authorization request, and the assertion that answers it
is handed to the Guard. A positive verdict consumes the pending request and issues a code.
-/
namespace AiAuth.Login
open Library Oidc CryptoService

def challengeTTL : ℤ := 2 * Time.minute

inductive LoginError
  | noChallenge
  | noCredential
  deriving DecidableEq

/-- A registered passkey. -/
structure Credential where
  id : Bytes
  tenantID : Bytes
  subjectID : Bytes
  publicKey : Bytes
  signCount : ℕ
  deriving DecidableEq

structure Challenge where
  value : Bytes
  expiresAt : ℤ
  deriving DecidableEq

/-- The random values that ceremonies started with, by pending id. -/
structure Challenges where
  items : Dict Bytes Challenge

namespace Challenges

def new : Challenges := ⟨Dict.empty⟩

/-- Issue a challenge; `raw` is what the random source answers, if it does. An older
challenge under the same id is replaced. -/
def issue (c : Challenges) (now : ℤ) (raw : Option Bytes) (rid : Bytes) :
    Option Bytes × Challenges :=
  match raw with
  | none => (none, c)
  | some raw =>
    (some raw,
      ⟨(c.items.retain fun _ v => !(v.expiresAt < now)).set rid ⟨raw, now + challengeTTL⟩⟩)

/-- Consume the challenge of a request, expired or not. -/
def take (c : Challenges) (now : ℤ) (rid : Bytes) : Except LoginError Bytes × Challenges :=
  match c.items.get rid with
  | none => (.error .noChallenge, c)
  | some ch =>
    (if ch.expiresAt < now then .error .noChallenge else .ok ch.value, ⟨c.items.remove rid⟩)

end Challenges

/-- The registered passkeys, each under its own id. -/
structure Credentials where
  items : Dict Bytes Credential
  keyed : ∀ id c, items.get id = some c → c.id = id

namespace Credentials

lemma keyed_empty (id : Bytes) (c : Credential)
    (h : (Dict.empty : Dict Bytes Credential).get id = some c) : c.id = id := by
  rw [Dict.get_empty] at h
  cases h

lemma keyed_set {items : Dict Bytes Credential} {id : Bytes} {c : Credential}
    (h : ∀ id c, items.get id = some c → c.id = id) (hc : c.id = id) (id' : Bytes)
    (c' : Credential) (hget : (items.set id c).get id' = some c') : c'.id = id' := by
  exact Dict.forall_get_set h hc id' c' hget

def new : Credentials := ⟨Dict.empty, keyed_empty⟩

def add (s : Credentials) (c : Credential) : Credentials :=
  ⟨s.items.set c.id c, keyed_set s.keyed rfl⟩

def get (s : Credentials) (id : Bytes) : Except LoginError Credential :=
  match s.items.get id with
  | none => .error .noCredential
  | some c => .ok c

/-- Replace the counter of a credential by the one the authenticator reported. -/
def updateSignCount (s : Credentials) (id : Bytes) (count : ℕ) :
    Except LoginError Unit × Credentials :=
  match h : s.items.get id with
  | none => (.error .noCredential, s)
  | some c =>
    (.ok (), ⟨s.items.set id { c with signCount := count }, keyed_set s.keyed (s.keyed id c h)⟩)

end Credentials

/-! ## The call to the Guard -/

/-- Who a Guard operation is for. -/
structure Call where
  tenantID : Bytes
  subjectID : Bytes
  requestID : Bytes
  deriving DecidableEq

/-- The context of a call; `uuid` stands in for an empty request id. -/
def Call.context (c : Call) (purpose : ℤ) (subjectRequired : Bool) (uuid : Bytes) :
    Option RequestContext :=
  if c.tenantID = [] then none
  else if subjectRequired && c.subjectID = [] then none
  else some ⟨c.tenantID, c.subjectID, purpose, if c.requestID = [] then uuid else c.requestID⟩

/-- The arguments of one verification. -/
structure Ask where
  call : Call
  rpID : Bytes
  origin : Bytes
  challenge : Bytes
  credential : StoredCredential
  assertion : Assertion
  deriving DecidableEq

/-- The number of the purpose of a passkey login. -/
def purposePasskeyLogin : ℤ := 1

/-- Ask the Guard. A call that cannot be put, or that fails, has no answer. -/
def verifyPasskey (rpc : VerifyAssertionRequest → Option VerifyAssertionResponse) (uuid : Bytes)
    (a : Ask) : Option VerifyAssertionResponse :=
  (a.call.context purposePasskeyLogin false uuid).bind fun rc =>
    rpc ⟨some rc, a.rpID, a.origin, a.challenge, some a.credential, some a.assertion⟩

/-! ## The handlers -/

structure Ceremony where
  rpID : Bytes
  origin : Bytes

/-- The body of a finish request. -/
structure FinishRequest where
  rid : Bytes
  credentialID : Bytes
  authenticatorData : Bytes
  clientDataJSON : Bytes
  signature : Bytes
  deriving DecidableEq

namespace Ceremony

def write (status : ℕ) (body : Json) : Response :=
  ⟨status, [(ascii "Content-Type", ascii "application/json"),
    (ascii "Cache-Control", ascii "no-store")], .json body⟩

def fail (status : ℕ) (msg : Bytes) : Response := write status (.strings [(ascii "error", msg)])

/-- The one answer to every failed authentication. -/
def deny : Response := fail 401 (ascii "authentication failed")

/-- Issue a challenge for a request id. -/
def begin (c : Ceremony) (challenges : Challenges) (now : ℤ) (raw : Option Bytes) (rid : Bytes) :
    Response × Challenges :=
  if rid = [] then (fail 400 (ascii "missing request id"), challenges)
  else match challenges.issue now raw rid with
    | (none, challenges) => (fail 503 (ascii "temporarily unavailable"), challenges)
    | (some challenge, challenges) =>
      (write 200 (.object [(ascii "challenge", .string (Base64.encode challenge)),
        (ascii "rpId", .string c.rpID), (ascii "timeout", .number (ascii "120000"))]), challenges)

/-- The challenge is consumed first: one challenge buys one attempt. -/
def takeChallenge (challenges : Challenges) (now : ℤ) (body : Option FinishRequest) :
    Except Response (FinishRequest × Bytes) × Challenges :=
  match body with
  | none => (.error (fail 400 (ascii "malformed request")), challenges)
  | some req =>
    match challenges.take now req.rid with
    | (.error _, challenges) => (.error deny, challenges)
    | (.ok challenge, challenges) => (.ok (req, challenge), challenges)

/-- The credential that the request names, and the assertion it carries. -/
def lookup (credentials : Credentials) (req : FinishRequest) :
    Except Response (Credential × Assertion) :=
  match credentials.get req.credentialID with
  | .error _ => .error deny
  | .ok cred =>
    match Base64.decode req.authenticatorData, Base64.decode req.clientDataJSON,
        Base64.decode req.signature with
    | some authData, some clientData, some sig => .ok (cred, ⟨authData, clientData, sig⟩)
    | _, _, _ => .error deny

/-- What the Guard is asked. -/
def ask (c : Ceremony) (challenge : Bytes) (cred : Credential) (assertion : Assertion) : Ask :=
  ⟨⟨cred.tenantID, cred.subjectID, []⟩, c.rpID, c.origin, challenge,
    ⟨cred.publicKey, cred.signCount⟩, assertion⟩

/-- The counter of a positive verdict. -/
def judge (answer : Option VerifyAssertionResponse) : Except Response ℕ :=
  match answer with
  | none => .error (fail 503 (ascii "authentication unavailable"))
  | some resp => if resp.verdict ≠ verdictVerified then .error deny else .ok resp.newSignCount

/-- Keep the counter. An error is only logged. -/
def persist (credentials : Credentials) (cred : Credential) (count : ℕ) : Credentials :=
  if count ≠ 0 then (credentials.updateSignCount cred.id count).2 else credentials

/-- Consume the pending request. -/
def takePending (pending : PendingStore) (now : ℤ) (rid : Bytes) :
    Except Response AuthzRequest × PendingStore :=
  match pending.take now rid with
  | (none, pending) => (.error deny, pending)
  | (some authz, pending) => (.ok authz, pending)

/-- What the code will stand for. -/
def grant (cred : Credential) (authz : AuthzRequest) (authTime : ℤ) : Grant :=
  ⟨authz.clientID, authz.redirectURI, authz.scope, authz.nonce, authz.codeChallenge,
    cred.subjectID, cred.tenantID, authTime⟩

/-- Issue the code, and say where to send the browser. -/
def issueCode (codes : CodeStore) (sweepAt now : ℤ) (raw : Option Bytes) (authz : AuthzRequest)
    (g : Grant) : Response × CodeStore :=
  match codes.issue sweepAt now raw g with
  | (none, codes) => (fail 503 (ascii "temporarily unavailable"), codes)
  | (some code, codes) =>
    match redirectWithCode authz.redirectURI authz.state code with
    | none => (fail 400 (ascii "invalid redirect"), codes)
    | some target => (write 200 (.strings [(ascii "redirect_to", target)]), codes)

end Ceremony

/-! ## What the operations do -/

section operations
variable {c c' : Challenges} {now : ℤ} {rid challenge : Bytes}

/-- After an issue, a challenge is the new one or was there before. -/
theorem Challenges.get_of_issue {e : Challenge} {value : Bytes} {rid' : Bytes}
    (h : c.issue now (some value) rid = (some challenge, c'))
    (hget : c'.items.get rid' = some e) :
    (rid' = rid ∧ e = ⟨value, now + challengeTTL⟩) ∨ (rid' ≠ rid ∧ c.items.get rid' = some e) := by
  unfold Challenges.issue at h
  obtain ⟨-, rfl⟩ := Prod.mk.inj h
  by_cases hrid : rid' = rid
  · subst hrid
    rw [Dict.get_set_self] at hget
    exact .inl ⟨rfl, (Option.some.inj hget).symm⟩
  · rw [Dict.get_set_ne _ hrid] at hget
    exact .inr ⟨hrid, Dict.get_of_retain hget⟩

/-- A challenge that is taken was stored under the id and has not expired. -/
theorem Challenges.take_ok (h : c.take now rid = (.ok challenge, c')) :
    ∃ e, c.items.get rid = some e ∧ e.value = challenge ∧ now ≤ e.expiresAt := by
  unfold Challenges.take at h
  split at h
  · cases h
  next e he =>
    obtain ⟨hres, -⟩ := Prod.mk.inj h
    split_ifs at hres with hexp
    exact ⟨e, he, Except.ok.inj hres, not_lt.mp hexp⟩

/-- After a take there is no challenge under the id, and the others are as they were. -/
theorem Challenges.get_take (rid' : Bytes) :
    (c.take now rid).2.items.get rid' = if rid' = rid then none else c.items.get rid' := by
  unfold Challenges.take
  split
  next h =>
    split_ifs with heq
    · exact heq ▸ h
    · rfl
  · exact Dict.get_remove _ _ _

end operations

namespace Ceremony

/-- The challenge of a request that goes on was taken under its id. -/
theorem takeChallenge_ok {c c' : Challenges} {now : ℤ} {body : Option FinishRequest}
    {req : FinishRequest} {challenge : Bytes}
    (h : takeChallenge c now body = (.ok (req, challenge), c')) :
    body = some req ∧ c.take now req.rid = (.ok challenge, c') := by
  unfold takeChallenge at h
  split at h
  · cases h
  next req' =>
    split at h
    · cases h
    next challenge' c'' htake =>
      obtain ⟨hres, rfl⟩ := Prod.mk.inj h
      obtain ⟨rfl, rfl⟩ := Prod.mk.inj (Except.ok.inj hres)
      exact ⟨rfl, htake⟩

/-- No challenge appears or changes. -/
theorem takeChallenge_get {c : Challenges} {now : ℤ} {body : Option FinishRequest} {rid : Bytes}
    {e : Challenge} (h : (takeChallenge c now body).2.items.get rid = some e) :
    c.items.get rid = some e := by
  unfold takeChallenge at h
  split at h
  · exact h
  next req =>
    have hsame : ∀ res, c.take now req.rid = res → res.2.items.get rid = some e →
        c.items.get rid = some e := by
      rintro res rfl hget
      rw [Challenges.get_take] at hget
      split_ifs at hget
      exact hget
    split at h
    next htake => exact hsame _ htake h
    next htake => exact hsame _ htake h

theorem lookup_ok {credentials : Credentials} {req : FinishRequest} {cred : Credential}
    {assertion : Assertion} (h : lookup credentials req = .ok (cred, assertion)) :
    credentials.items.get req.credentialID = some cred := by
  unfold lookup Credentials.get at h
  split at h
  · cases h
  next c hc =>
    split at hc
    · cases hc
    next hget =>
      obtain rfl := Except.ok.inj hc
      split at h
      · rw [← (Prod.mk.inj (Except.ok.inj h)).1]
        exact hget
      · cases h

theorem judge_ok {answer : Option VerifyAssertionResponse} {count : ℕ}
    (h : judge answer = .ok count) :
    ∃ resp, answer = some resp ∧ resp.verdict = verdictVerified ∧ resp.newSignCount = count := by
  unfold judge at h
  split at h
  · cases h
  next resp =>
    split_ifs at h with hv
    exact ⟨resp, rfl, not_not.mp hv, Except.ok.inj h⟩

theorem takePending_fst {p : PendingStore} {now : ℤ} {rid : Bytes} :
    (takePending p now rid).1.toOption = (p.take now rid).1 := by
  unfold takePending
  split <;> simp_all [Except.toOption]

theorem takePending_snd {p : PendingStore} {now : ℤ} {rid : Bytes} :
    (takePending p now rid).2 = (p.take now rid).2 := by
  unfold takePending
  split <;> simp_all

theorem issueCode_snd {codes : CodeStore} {sweepAt now : ℤ} {raw : Option Bytes}
    {authz : AuthzRequest} {g : Grant} :
    (issueCode codes sweepAt now raw authz g).2 = (codes.issue sweepAt now raw g).2 := by
  unfold issueCode
  split
  next h => rw [h]
  next h =>
    rw [h]
    dsimp only
    split <;> rfl

end Ceremony

/-- Only the counter of a credential changes. -/
theorem get_persist {credentials : Credentials} {cred : Credential} {count : ℕ} {id : Bytes}
    {c : Credential} (h : (Ceremony.persist credentials cred count).items.get id = some c) :
    ∃ c', credentials.items.get id = some c' ∧ c = { c' with signCount := c.signCount } := by
  unfold Ceremony.persist at h
  split_ifs at h
  · unfold Credentials.updateSignCount at h
    split at h
    · exact ⟨c, h, rfl⟩
    next c' hc' =>
      rcases Dict.get_of_set h with ⟨rfl, rfl⟩ | ⟨-, h⟩
      · exact ⟨c', hc', rfl⟩
      · exact ⟨c, h, rfl⟩
  · exact ⟨c, h, rfl⟩

/-- A counter that is not zero is written to the credential it was reported for. -/
theorem persist_get {credentials : Credentials} {cred c : Credential} {count : ℕ}
    (hc : credentials.items.get cred.id = some c) (hcount : count ≠ 0) (id : Bytes) :
    (Ceremony.persist credentials cred count).items.get id =
      if id = cred.id then some { c with signCount := count } else credentials.items.get id := by
  unfold Ceremony.persist Credentials.updateSignCount
  rw [if_pos hcount]
  split
  next hnone =>
    rw [hc] at hnone
    cases hnone
  next c' hc' =>
    obtain rfl := Option.some.inj (hc.symm.trans hc')
    exact Dict.get_set _ _ _ _

/-- An answer that comes back is the Guard's. -/
theorem verifyPasskey_some {answer : Option VerifyAssertionResponse} {uuid : Bytes} {a : Ask}
    {resp : VerifyAssertionResponse} (h : verifyPasskey (fun _ => answer) uuid a = some resp) :
    answer = some resp := by
  unfold verifyPasskey at h
  obtain ⟨_, -, hans⟩ := Option.bind_eq_some_iff.mp h
  exact hans

end AiAuth.Login
