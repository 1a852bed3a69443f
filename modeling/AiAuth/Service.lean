import AiAuth.Context
import AiAuth.Limits
import AiAuth.Software
import AiAuth.Webauthn

/-!
# The Guard's service

Every handler validates the purpose, then takes from the rate budget, then does the work,
and writes one audit line. The four handlers are over any provider, with a record of the
limiter's answers, of the cryptography that runs and of the audit lines; the Guard is their
case for the software provider, without the record.
-/
namespace AiAuth.CryptoService
open Library Aead Limits

/-- What a request finds: the clock, and the order in which the tenants' map is iterated. -/
structure Moment where
  now : ℚ
  order : List Key

/-- The line of one key operation. -/
def auditLine (op : Bytes) (ctx : Option RequestContext) (outcome : Bytes) : Bytes :=
  let tenant := (ctx.map RequestContext.tenantID).getD []
  let request := (ctx.map RequestContext.requestID).getD []
  ascii "\x7b\"audit\":\"key_op\",\"op\":\"" ++ op ++ ascii "\",\"tenant\":\"" ++ tenant ++
    ascii "\",\"request\":\"" ++ request ++ ascii "\",\"outcome\":\"" ++ outcome ++
    ascii "\"\x7d\n"

/-! ## The handlers -/

/-- The operations of a provider. What they answer and do to their own data is the provider's. -/
structure CryptoProvider (W : Type) where
  generateWrappedDek : KeyHandle → Bytes → W → Except ProviderError Bytes × W
  encryptField : KeyHandle → Bytes → Bytes → Bytes → W → Except ProviderError Bytes × W
  decryptField : KeyHandle → Bytes → Bytes → Bytes → W → Except ProviderError Bytes × W
  blindIndex : KeyHandle → Bytes → Bytes → W → Except ProviderError Index × W

/-- Cryptography that a handler runs. -/
inductive Work
  | verify
  | generateWrappedDek
  | encryptField
  | decryptField
  | blindIndex
  deriving DecidableEq

inductive Action
  | allow (tenantID op : Bytes) (granted : Bool)
  | work (w : Work)
  | audit (op outcome : Bytes)
  deriving DecidableEq

/-- The state of the Guard, and what it did. -/
structure Watch (W : Type) where
  tables : Tables
  world : W
  stdout : List Bytes
  actions : List Action

/-- The Guard over a provider. -/
structure Handlers (W : Type) where
  provider : CryptoProvider W
  indexKey : KeyHandle
  kek : KeyHandle
  limiter : RateLimiter

section handlers
variable {W α : Type}

namespace Watch

def audit (w : Watch W) (op : Bytes) (ctx : Option RequestContext) (outcome : Bytes) : Watch W :=
  { w with stdout := w.stdout ++ [auditLine op ctx outcome]
           actions := w.actions ++ [.audit op outcome] }

/-- Cryptography that has no data of its own. -/
def note (w : Watch W) (work : Work) : Watch W := { w with actions := w.actions ++ [.work work] }

/-- An operation of the provider. -/
def run (w : Watch W) (work : Work) (f : W → Except ProviderError α × W) :
    Except ProviderError α × Watch W :=
  let res := f w.world
  (res.1, { w.note work with world := res.2 })

end Watch

namespace Handlers

def withinLimits (h : Handlers W) (w : Watch W) (m : Moment) (op : Bytes)
    (ctx : Option RequestContext) (tenant : Bytes) : Except Status Unit × Watch W :=
  let res := h.limiter.allow w.tables m.now m.order tenant op
  let w := { w with tables := res.2, actions := w.actions ++ [.allow tenant op res.1] }
  if res.1 then (.ok (), w)
  else (.error ⟨.resourceExhausted, ascii "operation budget exceeded"⟩,
    w.audit op ctx (ascii "rate_limited"))

def fail (w : Watch W) (op : Bytes) (ctx : Option RequestContext) (e : ProviderError) :
    Status × Watch W :=
  let w := w.audit op ctx (ascii "denied")
  match e with
  | .decrypt => (⟨.permissionDenied, ascii "not available for this context"⟩, w)
  | _ => (⟨.internal, ascii "operation unavailable"⟩, w)

/-- The order of every handler: validate the context, take from the budget, then do the work. -/
def gated (h : Handlers W) (w : Watch W) (m : Moment) (op : Bytes) (want : Purpose)
    (subjectRequired : Bool) (ctx : Option RequestContext)
    (body : Watch W → Except Status α × Watch W) : Except Status α × Watch W :=
  match validate ctx want subjectRequired with
  | .error e => (.error e, w.audit op ctx (ascii "rejected"))
  | .ok () =>
    match h.withinLimits w m op ctx (tenantOf ctx) with
    | (.error e, w) => (.error e, w)
    | (.ok (), w) => body w

def verifyAssertion (P : Webauthn.Platform) (h : Handlers W) (w : Watch W) (m : Moment)
    (req : VerifyAssertionRequest) : Except Status VerifyAssertionResponse × Watch W :=
  let op := ascii "verify_assertion"
  h.gated w m op .passkeyLogin false req.context fun w =>
    match req.credential, req.assertion with
    | some cred, some assertion =>
      let exp : Webauthn.Expectations :=
        ⟨req.rpID, req.expectedOrigin, req.expectedChallenge, cred.signCount⟩
      let w := w.note .verify
      match Webauthn.verify P exp cred.cosePublicKey assertion with
      | .ok v =>
        (.ok ⟨verdictVerified, [], v.newSignCount⟩, w.audit op req.context (ascii "verified"))
      | .error rejection =>
        (.ok ⟨verdictRejected, rejection.code, cred.signCount⟩,
          w.audit op req.context rejection.code)
    | _, _ =>
      (.error ⟨.invalidArgument, ascii "credential and assertion are required"⟩,
        w.audit op req.context (ascii "rejected"))

/-- The wrapped key of the row, minted when the request has none. -/
def rowKey (h : Handlers W) (w : Watch W) (tenant wrapped : Bytes) :
    Except ProviderError Bytes × Watch W :=
  if wrapped = [] then w.run .generateWrappedDek (h.provider.generateWrappedDek h.kek tenant)
  else (.ok wrapped, w)

/-- The field under the key of the row. -/
def sealField (h : Handlers W) (w : Watch W) (req : EncryptFieldRequest) (wrapped : Bytes) :
    Except Status EncryptFieldResponse × Watch W :=
  let op := ascii "encrypt_field"
  match w.run .encryptField
      (h.provider.encryptField h.kek (tenantOf req.context) wrapped req.plaintext) with
  | (.ok ciphertext, w) => (.ok ⟨ciphertext, wrapped⟩, w.audit op req.context (ascii "ok"))
  | (.error e, w) =>
    let res := fail w op req.context e
    (.error res.1, res.2)

def encryptField (h : Handlers W) (w : Watch W) (m : Moment) (req : EncryptFieldRequest) :
    Except Status EncryptFieldResponse × Watch W :=
  let op := ascii "encrypt_field"
  h.gated w m op .rowEncrypt true req.context fun w =>
    match h.rowKey w (tenantOf req.context) req.wrappedDek with
    | (.error e, w) =>
      let res := fail w op req.context e
      (.error res.1, res.2)
    | (.ok wrapped, w) => h.sealField w req wrapped

def decryptField (h : Handlers W) (w : Watch W) (m : Moment) (req : DecryptFieldRequest) :
    Except Status DecryptFieldResponse × Watch W :=
  let op := ascii "decrypt_field"
  h.gated w m op .rowDecrypt true req.context fun w =>
    match w.run .decryptField (h.provider.decryptField h.kek (tenantOf req.context)
        req.wrappedDek req.ciphertext) with
    | (.ok plaintext, w) => (.ok ⟨plaintext⟩, w.audit op req.context (ascii "ok"))
    | (.error e, w) =>
      let res := fail w op req.context e
      (.error res.1, res.2)

/-- A failure of the index has its own outcome and its own message. -/
def blindIndex (h : Handlers W) (w : Watch W) (m : Moment) (req : BlindIndexRequest) :
    Except Status BlindIndexResponse × Watch W :=
  let op := ascii "blind_index"
  h.gated w m op .blindIndex false req.context fun w =>
    match w.run .blindIndex (h.provider.blindIndex h.indexKey (tenantOf req.context) req.input) with
    | (.ok index, w) => (.ok ⟨index.1⟩, w.audit op req.context (ascii "ok"))
    | (.error _, w) =>
      (.error ⟨.internal, ascii "blind index unavailable"⟩,
        w.audit op req.context (ascii "backend_error"))

end Handlers

end handlers

/-! ## The Guard over the software provider -/

structure Guard where
  provider : SoftwareProvider
  indexKey : KeyHandle
  kek : KeyHandle
  limiter : RateLimiter

/-- The capacity of the default limiter is 120, and it refills twenty tokens a second. -/
def Guard.new (provider : SoftwareProvider) (indexKey kek : KeyHandle) : Guard :=
  ⟨provider, indexKey, kek, .new 120 20⟩

/-- What changes between requests: the limiter's maps, the random and sealed data of the
provider, and the lines on standard output. -/
structure State where
  tables : Tables
  world : World
  stdout : List Bytes

def State.start : State := ⟨.empty, ⟨[], []⟩, []⟩

/-- The random values that a request draws. -/
structure Draws where
  dek : Dek
  wrapNonce : Nonce
  fieldNonce : Nonce

def State.audit (s : State) (op : Bytes) (ctx : Option RequestContext) (outcome : Bytes) : State :=
  { s with stdout := s.stdout ++ [auditLine op ctx outcome] }

def State.watch (s : State) (actions : List Action) : Watch World :=
  ⟨s.tables, s.world, s.stdout, actions⟩

/-- The state without the record. -/
def Watch.state (w : Watch World) : State := ⟨w.tables, w.world, w.stdout⟩

/-- A provider that refuses everything, in the place of the operations that a handler does not
ask for. -/
def CryptoProvider.none : CryptoProvider World where
  generateWrappedDek kek _ w := (.error (.unknownKey kek), w)
  encryptField kek _ _ _ w := (.error (.unknownKey kek), w)
  decryptField kek _ _ _ w := (.error (.unknownKey kek), w)
  blindIndex key _ _ w := (.error (.unknownKey key), w)

namespace SoftwareProvider

/-- What a request to encrypt asks for, with the random values that it draws. -/
def sealing (C : Cipher) (p : SoftwareProvider) (r : Draws) : CryptoProvider World :=
  { CryptoProvider.none with
    generateWrappedDek := fun kek tenant w =>
      p.generateWrappedDek C w r.dek r.wrapNonce kek tenant
    encryptField := fun kek tenant wrapped plaintext w =>
      p.encryptField C w r.fieldNonce kek tenant wrapped plaintext }

/-- What a request to decrypt asks for. It draws nothing. -/
def opening (p : SoftwareProvider) : CryptoProvider World :=
  { CryptoProvider.none with
    decryptField := fun kek tenant wrapped ciphertext w =>
      (p.decryptField w kek tenant wrapped ciphertext, w) }

/-- All the operations. -/
def operations (C : Cipher) (hmac : Bytes → Bytes → Index) (p : SoftwareProvider) (r : Draws) :
    CryptoProvider World :=
  { p.sealing C r with
    decryptField := p.opening.decryptField
    blindIndex := fun key tenant input w => (p.blindIndex hmac key tenant input, w) }

end SoftwareProvider

namespace Guard

/-- The handlers of a Guard with the operations `p`. -/
def serving (g : Guard) (p : CryptoProvider World) : Handlers World :=
  ⟨p, g.indexKey, g.kek, g.limiter⟩

def handlers (C : Cipher) (hmac : Bytes → Bytes → Index) (g : Guard) (r : Draws) :
    Handlers World :=
  g.serving (g.provider.operations C hmac r)

/-- The two checks in front of every operation. -/
def enter (g : Guard) (s : State) (m : Moment) (op : Bytes) (want : Purpose)
    (subjectRequired : Bool) (ctx : Option RequestContext) : Except Status Unit × State :=
  Prod.map id Watch.state <|
    (g.serving .none).gated (s.watch []) m op want subjectRequired ctx fun w => (.ok (), w)

/-- The verdict on an assertion, which needs nothing of the provider. -/
def verifyAssertion (P : Webauthn.Platform) (g : Guard) (s : State) (m : Moment)
    (req : VerifyAssertionRequest) : Except Status VerifyAssertionResponse × State :=
  Prod.map id Watch.state ((g.serving .none).verifyAssertion P (s.watch []) m req)

def encryptField (C : Cipher) (g : Guard) (s : State) (m : Moment) (r : Draws)
    (req : EncryptFieldRequest) : Except Status EncryptFieldResponse × State :=
  Prod.map id Watch.state ((g.serving (g.provider.sealing C r)).encryptField (s.watch []) m req)

def decryptField (g : Guard) (s : State) (m : Moment) (req : DecryptFieldRequest) :
    Except Status DecryptFieldResponse × State :=
  Prod.map id Watch.state ((g.serving g.provider.opening).decryptField (s.watch []) m req)

/-- What the key of the row is, and what it costs the provider's data. -/
def rowKey (C : Cipher) (g : Guard) (w : World) (r : Draws) (tenant wrapped : Bytes) :
    Except ProviderError Bytes × World :=
  if wrapped = [] then g.provider.generateWrappedDek C w r.dek r.wrapNonce g.kek tenant
  else (.ok wrapped, w)

end Guard

/-! ## What the handlers do to the provider's data -/

/-- What a caller sees of a provider's failure. -/
def ProviderError.status : ProviderError → Status
  | .decrypt => ⟨.permissionDenied, ascii "not available for this context"⟩
  | _ => ⟨.internal, ascii "operation unavailable"⟩

section software
variable {C : Cipher} {g : Guard} {s s' : State} {m : Moment} {r : Draws} {op : Bytes}
  {want : Purpose} {subjectRequired : Bool} {ctx : Option RequestContext} {w : Watch World}

lemma fail_eq {e : ProviderError} :
    Handlers.fail w op ctx e = (e.status, w.audit op ctx (ascii "denied")) := by
  cases e <;> rfl

lemma enter_eq : g.enter s m op want subjectRequired ctx =
    match validate ctx want subjectRequired with
    | .error e => (.error e, s.audit op ctx (ascii "rejected"))
    | .ok () =>
      let res := g.limiter.allow s.tables m.now m.order (tenantOf ctx) op
      if res.1 then (.ok (), { s with tables := res.2 })
      else (.error ⟨.resourceExhausted, ascii "operation budget exceeded"⟩,
        { s with tables := res.2 }.audit op ctx (ascii "rate_limited")) := by
  have hallow : (g.serving .none).limiter.allow (s.watch []).tables m.now m.order
      (tenantOf ctx) op = g.limiter.allow s.tables m.now m.order (tenantOf ctx) op := rfl
  unfold Guard.enter Handlers.gated
  cases validate ctx want subjectRequired with
  | error e => rfl
  | ok u =>
    simp only [Handlers.withinLimits, hallow]
    cases (g.limiter.allow s.tables m.now m.order (tenantOf ctx) op).1 <;> rfl

/-- The checks leave the provider's data alone, and only a valid context within its budget
passes them. -/
lemma enter_cases {res : Except Status Unit}
    (h : g.enter s m op want subjectRequired ctx = (res, s')) :
    s'.world = s.world ∧ (res = .ok () ↔ validate ctx want subjectRequired = .ok () ∧
      (g.limiter.allow s.tables m.now m.order (tenantOf ctx) op).1 = true) := by
  rw [enter_eq] at h
  cases hv : validate ctx want subjectRequired with
  | error e =>
    rw [hv] at h
    obtain ⟨rfl, rfl⟩ := Prod.mk.inj h
    exact ⟨rfl, by simp⟩
  | ok u =>
    rw [hv] at h
    dsimp only at h
    by_cases hallow : (g.limiter.allow s.tables m.now m.order (tenantOf ctx) op).1 = true
    · rw [if_pos hallow] at h
      obtain ⟨rfl, rfl⟩ := Prod.mk.inj h
      exact ⟨rfl, by simp [hallow]⟩
    · rw [if_neg hallow] at h
      obtain ⟨rfl, rfl⟩ := Prod.mk.inj h
      exact ⟨rfl, by simp [hallow]⟩

/-- A handler ends at the checks, or does its work on the provider's data as it found them. -/
lemma gated_cases {α : Type} {p : CryptoProvider World} {answer : Except Status α}
    {body : Watch World → Except Status α × Watch World}
    (h : Prod.map id Watch.state
      ((g.serving p).gated (s.watch []) m op want subjectRequired ctx body) = (answer, s')) :
    (∃ e, (g.enter s m op want subjectRequired ctx).1 = .error e ∧ answer = .error e ∧
      s'.world = s.world) ∨
    ((g.enter s m op want subjectRequired ctx).1 = .ok () ∧
      ∃ w, w.world = s.world ∧ Prod.map id Watch.state (body w) = (answer, s')) := by
  have hallow : (g.serving p).limiter.allow (s.watch []).tables m.now m.order (tenantOf ctx) op =
      g.limiter.allow s.tables m.now m.order (tenantOf ctx) op := rfl
  rw [enter_eq]
  unfold Handlers.gated at h
  cases hv : validate ctx want subjectRequired with
  | error e =>
    rw [hv] at h
    obtain ⟨rfl, rfl⟩ := Prod.mk.inj h
    exact .inl ⟨e, rfl, rfl, rfl⟩
  | ok u =>
    rw [hv] at h
    simp only [Handlers.withinLimits, hallow] at h
    cases hgranted : (g.limiter.allow s.tables m.now m.order (tenantOf ctx) op).1 with
    | true =>
      rw [hgranted] at h
      exact .inr ⟨by simp [hgranted], _, rfl, h⟩
    | false =>
      rw [hgranted] at h
      obtain ⟨rfl, rfl⟩ := Prod.mk.inj h
      exact .inl ⟨_, by simp [hgranted], rfl, rfl⟩

lemma rowKey_world (w : Watch World) (tenant wrapped : Bytes) :
    ∃ w', (g.serving (g.provider.sealing C r)).rowKey w tenant wrapped =
      ((g.rowKey C w.world r tenant wrapped).1, w') ∧
      w'.world = (g.rowKey C w.world r tenant wrapped).2 := by
  unfold Handlers.rowKey Guard.rowKey
  split_ifs
  · exact ⟨_, rfl, rfl⟩
  · exact ⟨w, rfl, rfl⟩

lemma sealField_cases {req : EncryptFieldRequest} {wrapped : Bytes}
    {answer : Except Status EncryptFieldResponse}
    (h : Prod.map id Watch.state ((g.serving (g.provider.sealing C r)).sealField w req wrapped) =
      (answer, s')) :
    ∃ res, g.provider.encryptField C w.world r.fieldNonce g.kek (tenantOf req.context) wrapped
        req.plaintext = (res, s'.world) ∧
      ((∃ e, res = .error e ∧ answer = .error e.status) ∨
        ∃ c, res = .ok c ∧ answer = .ok ⟨c, wrapped⟩) := by
  have hop : (g.serving (g.provider.sealing C r)).provider.encryptField
      (g.serving (g.provider.sealing C r)).kek (tenantOf req.context) wrapped req.plaintext
      w.world = g.provider.encryptField C w.world r.fieldNonce g.kek (tenantOf req.context)
        wrapped req.plaintext := rfl
  simp only [Handlers.sealField, Watch.run, hop, fail_eq] at h
  cases hfield : g.provider.encryptField C w.world r.fieldNonce g.kek (tenantOf req.context)
      wrapped req.plaintext with
  | mk res world =>
    rw [hfield] at h
    cases res with
    | error e =>
      obtain ⟨rfl, rfl⟩ := Prod.mk.inj h
      exact ⟨.error e, rfl, .inl ⟨e, rfl, rfl⟩⟩
    | ok c =>
      obtain ⟨rfl, rfl⟩ := Prod.mk.inj h
      exact ⟨.ok c, rfl, .inr ⟨c, rfl, rfl⟩⟩

/-- How a request to encrypt can end: at the checks, at the key of the row, or at the field. -/
lemma encryptField_cases {req : EncryptFieldRequest}
    {answer : Except Status EncryptFieldResponse} (h : g.encryptField C s m r req = (answer, s')) :
    (∃ e, (g.enter s m (ascii "encrypt_field") .rowEncrypt true req.context).1 = .error e ∧
      answer = .error e ∧ s'.world = s.world) ∨
    (∃ e, g.rowKey C s.world r (tenantOf req.context) req.wrappedDek = (.error e, s'.world) ∧
      answer = .error e.status) ∨
    ∃ wrapped w, g.rowKey C s.world r (tenantOf req.context) req.wrappedDek = (.ok wrapped, w) ∧
      ∃ res, g.provider.encryptField C w r.fieldNonce g.kek (tenantOf req.context) wrapped
        req.plaintext = (res, s'.world) ∧
      ((∃ e, res = .error e ∧ answer = .error e.status) ∨
        ∃ c, res = .ok c ∧ answer = .ok ⟨c, wrapped⟩) := by
  rcases gated_cases h with hchecks | ⟨-, w, hworld, hbody⟩
  · exact .inl hchecks
  · obtain ⟨w₁, hkey, hw₁⟩ :=
      rowKey_world (g := g) (C := C) (r := r) w (tenantOf req.context) req.wrappedDek
    rw [hworld] at hkey hw₁
    simp only [hkey, fail_eq] at hbody
    cases hrow : g.rowKey C s.world r (tenantOf req.context) req.wrappedDek with
    | mk key world =>
      rw [hrow] at hbody hw₁
      cases key with
      | error e =>
        obtain ⟨rfl, rfl⟩ := Prod.mk.inj hbody
        obtain rfl : w₁.world = world := hw₁
        exact .inr (.inl ⟨e, rfl, rfl⟩)
      | ok wrapped =>
        obtain rfl : w₁.world = world := hw₁
        exact .inr (.inr ⟨wrapped, _, rfl, sealField_cases hbody⟩)

/-- A request to decrypt that passes the checks answers what the provider does. -/
lemma decryptField_cases {req : DecryptFieldRequest}
    {answer : Except Status DecryptFieldResponse} (h : g.decryptField s m req = (answer, s')) :
    s'.world = s.world ∧
    ((∃ e, (g.enter s m (ascii "decrypt_field") .rowDecrypt true req.context).1 = .error e ∧
        answer = .error e) ∨
      (g.enter s m (ascii "decrypt_field") .rowDecrypt true req.context).1 = .ok () ∧
        answer = ((g.provider.decryptField s.world g.kek (tenantOf req.context) req.wrappedDek
          req.ciphertext).mapError ProviderError.status).map fun p => ⟨p⟩) := by
  rcases gated_cases h with ⟨e, henter, hanswer, hworld⟩ | ⟨henter, w, hworld, hbody⟩
  · exact ⟨hworld, .inl ⟨e, henter, hanswer⟩⟩
  · have hop : (g.serving g.provider.opening).provider.decryptField
        (g.serving g.provider.opening).kek (tenantOf req.context) req.wrappedDek req.ciphertext
        w.world =
        (g.provider.decryptField s.world g.kek (tenantOf req.context) req.wrappedDek
          req.ciphertext, w.world) := by
      rw [← hworld]
      rfl
    simp only [Watch.run, hop, fail_eq] at hbody
    cases hdec : g.provider.decryptField s.world g.kek (tenantOf req.context) req.wrappedDek
        req.ciphertext with
    | error e =>
      rw [hdec] at hbody
      obtain ⟨rfl, rfl⟩ := Prod.mk.inj hbody
      exact ⟨hworld, .inr ⟨henter, rfl⟩⟩
    | ok p =>
      rw [hdec] at hbody
      obtain ⟨rfl, rfl⟩ := Prod.mk.inj hbody
      exact ⟨hworld, .inr ⟨henter, rfl⟩⟩

/-- A positive verdict is the verifier's, against the count it was handed. -/
theorem verifyAssertion_verified {P : Webauthn.Platform} {req : VerifyAssertionRequest}
    {resp : VerifyAssertionResponse} (h : g.verifyAssertion P s m req = (.ok resp, s'))
    (hv : resp.verdict = verdictVerified) :
    ∃ cred assertion, req.credential = some cred ∧ req.assertion = some assertion ∧
      Webauthn.verify P ⟨req.rpID, req.expectedOrigin, req.expectedChallenge, cred.signCount⟩
        cred.cosePublicKey assertion = .ok ⟨resp.newSignCount⟩ := by
  rcases gated_cases h with ⟨e, -, hanswer, -⟩ | ⟨-, w, -, hbody⟩
  · cases hanswer
  · dsimp only at hbody
    split at hbody
    next cred assertion hcred hassertion =>
      split at hbody
      next v hok =>
        obtain ⟨hresp, -⟩ := Prod.mk.inj hbody
        obtain rfl := Except.ok.inj hresp
        exact ⟨cred, assertion, hcred, hassertion, hok⟩
      next rejection hrej =>
        obtain ⟨hresp, -⟩ := Prod.mk.inj hbody
        obtain rfl := Except.ok.inj hresp
        cases hv
    · cases hbody

/-- A handler asks the provider for nothing else, so that it does the same when the provider has
all its operations. -/
theorem verifyAssertion_state {hmac : Bytes → Bytes → Index} (P : Webauthn.Platform)
    (req : VerifyAssertionRequest) :
    Prod.map id Watch.state ((g.handlers C hmac r).verifyAssertion P (s.watch []) m req) =
      g.verifyAssertion P s m req := rfl

theorem encryptField_state {hmac : Bytes → Bytes → Index} (req : EncryptFieldRequest) :
    Prod.map id Watch.state ((g.handlers C hmac r).encryptField (s.watch []) m req) =
      g.encryptField C s m r req := rfl

theorem decryptField_state {hmac : Bytes → Bytes → Index} (req : DecryptFieldRequest) :
    Prod.map id Watch.state ((g.handlers C hmac r).decryptField (s.watch []) m req) =
      g.decryptField s m req := rfl

end software
end AiAuth.CryptoService
