import AiAuth.Envelope
import AiAuth.KeyOperations
import AiAuth.Library.Machine

/-!
# The Guard over whole runs

Calls of all four kinds, one after the other, over the software provider. A call is refused at
the gate, refused for its rate, or does its work; each way it writes one audit line.
-/
namespace AiAuth.CryptoService
open Library Aead Limits

/-- A call, with what it finds and the random values it draws. -/
structure Incoming where
  moment : Moment
  draws : Draws
  call : Call

namespace Incoming

def tenantID (i : Incoming) : Bytes := tenantOf i.call.context

/-- What the gate says to the call. -/
def gate (i : Incoming) : Except Status Unit :=
  validate i.call.context i.call.purpose i.call.subjectRequired

def key (i : Incoming) : Key := (i.tenantID, i.call.op)

end Incoming

/-- The answer to a call that is refused. -/
def Call.refused (e : Status) : Call → Answer
  | .verifyAssertion _ => .verifyAssertion (.error e)
  | .encryptField _ => .encryptField (.error e)
  | .decryptField _ => .decryptField (.error e)
  | .blindIndex _ => .blindIndex (.error e)

namespace Answer

/-- The status of an answer that is an error. -/
def status : Answer → Option Status
  | .verifyAssertion (.error e) | .encryptField (.error e) | .decryptField (.error e)
  | .blindIndex (.error e) => some e
  | _ => none

/-- The outcome that is audited when the work was done. -/
def outcome : Answer → Bytes
  | .verifyAssertion (.ok resp) =>
    if resp.verdict = verdictVerified then ascii "verified" else resp.reason
  | .verifyAssertion (.error _) => ascii "rejected"
  | .encryptField (.ok _) | .decryptField (.ok _) | .blindIndex (.ok _) => ascii "ok"
  | .encryptField (.error _) | .decryptField (.error _) => ascii "denied"
  | .blindIndex (.error _) => ascii "backend_error"

/-- The call was refused for its rate. -/
def limited (a : Answer) : Bool := a.status.any fun e => e.code = .resourceExhausted

end Answer

/-- The answer of the limiter. -/
def budgetExceeded : Status := ⟨.resourceExhausted, ascii "operation budget exceeded"⟩

/-- The line that is written for a call with this answer. -/
def Incoming.line (i : Incoming) (a : Answer) : Bytes :=
  auditLine i.call.op i.call.context <|
    if !i.gate.isOk then ascii "rejected"
    else if a.limited then ascii "rate_limited"
    else a.outcome

section work
variable (P : Webauthn.Platform) (C : Cipher) (hmac : Bytes → Bytes → Index) (g : Guard)

/-- The verdict on an assertion that is complete. -/
def assess (req : VerifyAssertionRequest) : Except Status VerifyAssertionResponse :=
  match req.credential, req.assertion with
  | some cred, some assertion =>
    match Webauthn.verify P ⟨req.rpID, req.expectedOrigin, req.expectedChallenge, cred.signCount⟩
        cred.cosePublicKey assertion with
    | .ok v => .ok ⟨verdictVerified, [], v.newSignCount⟩
    | .error rejection => .ok ⟨verdictRejected, rejection.code, cred.signCount⟩
  | _, _ => .error ⟨.invalidArgument, ascii "credential and assertion are required"⟩

/-- The field under the key of its row, if there is one. -/
def Guard.sealUnder (r : Draws) (req : EncryptFieldRequest) :
    Except ProviderError Bytes → World → Except Status EncryptFieldResponse × World
  | .error e, w => (.error e.status, w)
  | .ok wrapped, w =>
    let res := g.provider.encryptField C w r.fieldNonce g.kek (tenantOf req.context) wrapped
      req.plaintext
    ((res.1.mapError ProviderError.status).map fun c => ⟨c, wrapped⟩, res.2)

def Guard.sealRow (w : World) (r : Draws) (req : EncryptFieldRequest) :
    Except Status EncryptFieldResponse × World :=
  let key := g.rowKey C w r (tenantOf req.context) req.wrappedDek
  g.sealUnder C r req key.1 key.2

/-- What a handler does behind its checks: the answer, and the provider's data after it. -/
def Guard.work (w : World) (r : Draws) : Call → Answer × World
  | .verifyAssertion req => (.verifyAssertion (assess P req), w)
  | .encryptField req =>
    let res := g.sealRow C w r req
    (.encryptField res.1, res.2)
  | .decryptField req =>
    (.decryptField (((g.provider.decryptField w g.kek (tenantOf req.context) req.wrappedDek
      req.ciphertext).mapError ProviderError.status).map fun p => ⟨p⟩), w)
  | .blindIndex req =>
    (.blindIndex (((g.provider.blindIndex hmac g.indexKey (tenantOf req.context)
      req.input).mapError fun _ => ⟨.internal, ascii "blind index unavailable"⟩).map
        fun index => ⟨index.1⟩), w)

/-- One call to the handlers over the software provider. -/
def Guard.serve (s : State) (i : Incoming) : Answer × State :=
  let res := (g.handlers C hmac i.draws).serve P (s.watch []) i.moment i.call
  (res.1, res.2.state)

end work

section serve
variable {P : Webauthn.Platform} {C : Cipher} {hmac : Bytes → Bytes → Index} {g : Guard}
  {s : State} {i : Incoming}

/-- A handler whose work is `done`, and audited with the outcome of what it answers. -/
lemma gated_eq {α : Type} {m : Moment} {r : Draws} {op : Bytes} {want : Purpose}
    {subjectRequired : Bool} {ctx : Option RequestContext}
    {body : Watch World → Except Status α × Watch World} (wrap : Except Status α → Answer)
    (done : World → Except Status α × World)
    (hbody : ∀ w, Prod.map wrap Watch.state (body w) =
      (wrap (done w.world).1, { w.state with world := (done w.world).2 }.audit op ctx
        (wrap (done w.world).1).outcome)) :
    Prod.map wrap Watch.state ((g.handlers C hmac r).gated (s.watch []) m op want subjectRequired
        ctx body) =
      match validate ctx want subjectRequired with
      | .error e => (wrap (.error e), s.audit op ctx (ascii "rejected"))
      | .ok () =>
        let res := g.limiter.allow s.tables m.now m.order (tenantOf ctx) op
        if res.1 then
          (wrap (done s.world).1, { s with tables := res.2, world := (done s.world).2 }.audit op ctx
            (wrap (done s.world).1).outcome)
        else (wrap (.error budgetExceeded),
          { s with tables := res.2 }.audit op ctx (ascii "rate_limited")) := by
  unfold Handlers.gated
  cases validate ctx want subjectRequired with
  | error e => rfl
  | ok u =>
    have hallow : (g.handlers C hmac r).limiter.allow (s.watch []).tables m.now m.order
        (tenantOf ctx) op = g.limiter.allow s.tables m.now m.order (tenantOf ctx) op := rfl
    simp only [Handlers.withinLimits, hallow]
    cases (g.limiter.allow s.tables m.now m.order (tenantOf ctx) op).1 with
    | true => exact hbody _
    | false => rfl

lemma assess_eq (req : VerifyAssertionRequest) (w : Watch World) :
    Prod.map Answer.verifyAssertion Watch.state
      (match req.credential, req.assertion with
      | some cred, some assertion =>
        match Webauthn.verify P ⟨req.rpID, req.expectedOrigin, req.expectedChallenge,
            cred.signCount⟩ cred.cosePublicKey assertion with
        | .ok v => (.ok ⟨verdictVerified, [], v.newSignCount⟩,
            (w.note .verify).audit (ascii "verify_assertion") req.context (ascii "verified"))
        | .error rejection => (.ok ⟨verdictRejected, rejection.code, cred.signCount⟩,
            (w.note .verify).audit (ascii "verify_assertion") req.context rejection.code)
      | _, _ => (.error ⟨.invalidArgument, ascii "credential and assertion are required"⟩,
          w.audit (ascii "verify_assertion") req.context (ascii "rejected"))) =
      (.verifyAssertion (assess P req), w.state.audit (ascii "verify_assertion") req.context
        (Answer.verifyAssertion (assess P req)).outcome) := by
  unfold assess
  cases req.credential with
  | none => rfl
  | some cred =>
    cases req.assertion with
    | none => rfl
    | some assertion =>
      dsimp only
      split <;> rfl

lemma sealField_eq (req : EncryptFieldRequest) (r : Draws) (wrapped : Bytes) (w : Watch World) :
    Prod.map Answer.encryptField Watch.state
        ((g.handlers C hmac r).sealField w req wrapped) =
      let res := g.provider.encryptField C w.world r.fieldNonce g.kek (tenantOf req.context) wrapped
        req.plaintext
      let answer := Answer.encryptField ((res.1.mapError ProviderError.status).map
        fun c => ⟨c, wrapped⟩)
      (answer, { w.state with world := res.2 }.audit (ascii "encrypt_field") req.context
        answer.outcome) := by
  simp only [Handlers.sealField, Watch.run, Guard.handlers, Guard.serving,
    SoftwareProvider.operations, SoftwareProvider.sealing]
  rcases g.provider.encryptField C w.world r.fieldNonce g.kek (tenantOf req.context) wrapped
    req.plaintext with ⟨e | ciphertext, world⟩
  · cases e <;> rfl
  · rfl

/-- A call is refused at the gate, does its work, or is refused for its rate. -/
theorem serve_eq : g.serve P C hmac s i =
    match i.gate with
    | .error e => (i.call.refused e, s.audit i.call.op i.call.context (ascii "rejected"))
    | .ok () =>
      let res := g.limiter.allow s.tables i.moment.now i.moment.order i.tenantID i.call.op
      if res.1 then
        let done := g.work P C hmac s.world i.draws i.call
        (done.1, { s with tables := res.2, world := done.2 }.audit i.call.op i.call.context
          done.1.outcome)
      else (i.call.refused budgetExceeded,
        { s with tables := res.2 }.audit i.call.op i.call.context (ascii "rate_limited")) := by
  obtain ⟨m, r, call⟩ := i
  cases call with
  | verifyAssertion req =>
    exact gated_eq .verifyAssertion (fun w => (assess P req, w)) fun w => assess_eq req w
  | encryptField req =>
    refine gated_eq .encryptField (fun w => g.sealRow C w r req) fun w => ?_
    by_cases hempty : req.wrappedDek = []
    · simp only [Handlers.rowKey, Guard.sealRow, Guard.rowKey, if_pos hempty, Watch.run,
        Guard.handlers, Guard.serving, SoftwareProvider.operations, SoftwareProvider.sealing]
      rcases g.provider.generateWrappedDek C w.world r.dek r.wrapNonce g.kek
        (tenantOf req.context) with ⟨e | wrapped, world⟩
      · cases e <;> rfl
      · exact sealField_eq req r wrapped _
    · simp only [Handlers.rowKey, Guard.sealRow, Guard.rowKey, if_neg hempty]
      exact sealField_eq req r req.wrappedDek w
  | decryptField req =>
    refine gated_eq .decryptField (fun w => (((g.provider.decryptField w g.kek
      (tenantOf req.context) req.wrappedDek req.ciphertext).mapError ProviderError.status).map
        fun p => ⟨p⟩, w)) fun w => ?_
    simp only [Watch.run, Guard.handlers, Guard.serving, SoftwareProvider.operations,
      SoftwareProvider.opening]
    cases g.provider.decryptField w.world g.kek (tenantOf req.context) req.wrappedDek
        req.ciphertext with
    | ok plaintext => rfl
    | error e => cases e <;> rfl
  | blindIndex req =>
    refine gated_eq .blindIndex (fun w => (((g.provider.blindIndex hmac g.indexKey
      (tenantOf req.context) req.input).mapError fun _ =>
        ⟨.internal, ascii "blind index unavailable"⟩).map fun index => ⟨index.1⟩, w)) fun w => ?_
    simp only [Watch.run, Guard.handlers, Guard.serving, SoftwareProvider.operations]
    cases g.provider.blindIndex hmac g.indexKey (tenantOf req.context) req.input <;> rfl

lemma serve_rejected {e : Status} (h : i.gate = .error e) : g.serve P C hmac s i =
    (i.call.refused e, s.audit i.call.op i.call.context (ascii "rejected")) := by
  rw [serve_eq, h]

lemma serve_done (h : i.gate = .ok ())
    (hallow :
      (g.limiter.allow s.tables i.moment.now i.moment.order i.tenantID i.call.op).1 = true) :
    g.serve P C hmac s i = ((g.work P C hmac s.world i.draws i.call).1,
      { s with
        tables := (g.limiter.allow s.tables i.moment.now i.moment.order i.tenantID i.call.op).2
        world := (g.work P C hmac s.world i.draws i.call).2 }.audit i.call.op i.call.context
          (g.work P C hmac s.world i.draws i.call).1.outcome) := by
  rw [serve_eq, h]
  dsimp only
  rw [if_pos hallow]

lemma serve_limited (h : i.gate = .ok ())
    (hallow :
      (g.limiter.allow s.tables i.moment.now i.moment.order i.tenantID i.call.op).1 = false) :
    g.serve P C hmac s i = (i.call.refused budgetExceeded,
      { s with
        tables := (g.limiter.allow s.tables i.moment.now i.moment.order i.tenantID i.call.op).2
      }.audit i.call.op i.call.context (ascii "rate_limited")) := by
  rw [serve_eq, h]
  dsimp only
  rw [if_neg (by rw [hallow]; exact Bool.false_ne_true)]

@[simp] lemma status_refused {e : Status} : (i.call.refused e).status = some e := by
  cases i.call <;> rfl

/-- What the gate answers is not about the rate. -/
lemma gate_code {e : Status} (h : i.gate = .error e) : e.code ≠ .resourceExhausted := by
  unfold Incoming.gate validate at h
  split at h
  · obtain rfl := Except.error.inj h
    exact Code.noConfusion
  next c =>
    split_ifs at h <;> obtain rfl := Except.error.inj h <;> exact Code.noConfusion

lemma provider_code {e : ProviderError} : e.status.code ≠ .resourceExhausted := by
  cases e <;> exact Code.noConfusion

/-- The work of a handler never fails for the rate. -/
lemma limited_work {w : World} {r : Draws} {call : Call} :
    (g.work P C hmac w r call).1.limited = false := by
  have hmap : ∀ {α β : Type} (res : Except ProviderError α) (f : α → β) (e : Status),
      (res.mapError ProviderError.status).map f = .error e → e.code ≠ .resourceExhausted := by
    intro α β res f e h
    cases res with
    | error e' =>
      obtain rfl := Except.error.inj h
      exact provider_code
    | ok a => cases h
  have hstatus : ∀ e, (g.work P C hmac w r call).1.status = some e →
      e.code ≠ .resourceExhausted := by
    intro e h
    cases call with
    | verifyAssertion req =>
      simp only [Guard.work, assess] at h
      split at h
      · split at h <;> cases h
      · obtain rfl := Option.some.inj h
        exact Code.noConfusion
    | encryptField req =>
      cases hseal : (g.sealRow C w r req).1 with
      | ok resp =>
        simp only [Guard.work, hseal] at h
        cases h
      | error e' =>
        simp only [Guard.work, hseal] at h
        obtain rfl := Option.some.inj h
        unfold Guard.sealRow Guard.sealUnder at hseal
        dsimp only at hseal
        split at hseal
        · obtain rfl := Except.error.inj hseal
          exact provider_code
        · exact hmap _ _ _ hseal
    | decryptField req =>
      cases hdec : ((g.provider.decryptField w g.kek (tenantOf req.context) req.wrappedDek
          req.ciphertext).mapError ProviderError.status).map DecryptFieldResponse.mk with
      | ok resp =>
        simp only [Guard.work, hdec] at h
        cases h
      | error e' =>
        simp only [Guard.work, hdec] at h
        obtain rfl := Option.some.inj h
        exact hmap _ _ _ hdec
    | blindIndex req =>
      simp only [Guard.work] at h
      cases hidx : g.provider.blindIndex hmac g.indexKey (tenantOf req.context) req.input with
      | ok index =>
        rw [hidx] at h
        cases h
      | error e' =>
        rw [hidx] at h
        obtain rfl := Option.some.inj h
        exact Code.noConfusion
  unfold Answer.limited
  cases h : (g.work P C hmac w r call).1.status with
  | none => rfl
  | some e => simpa using hstatus e h

/-- A call is refused for its rate where it passes the gate and the limiter refuses it. -/
theorem limited_iff : (g.serve P C hmac s i).1.limited = true ↔ i.gate = .ok () ∧
    (g.limiter.allow s.tables i.moment.now i.moment.order i.tenantID i.call.op).1 = false := by
  cases hgate : i.gate with
  | error e => simpa [serve_rejected hgate, Answer.limited] using gate_code hgate
  | ok u =>
    cases hallow :
        (g.limiter.allow s.tables i.moment.now i.moment.order i.tenantID i.call.op).1 with
    | true => simp [serve_done hgate hallow, limited_work]
    | false => simp [serve_limited hgate hallow, Answer.limited, budgetExceeded]

end serve

/-! ## What leaves no mark -/

section marks
variable {P : Webauthn.Platform} {C : Cipher} {hmac : Bytes → Bytes → Index} {g : Guard}
  {s s' : State} {i : Incoming}

/-- What a call does depends on the limiter's maps and the provider's data, not on the log. -/
lemma serve_congr (htables : s.tables = s'.tables) (hworld : s.world = s'.world) :
    ∃ answer tables world outcome,
      g.serve P C hmac s i = (answer, ⟨tables, world,
        s.stdout ++ [auditLine i.call.op i.call.context outcome]⟩) ∧
      g.serve P C hmac s' i = (answer, ⟨tables, world,
        s'.stdout ++ [auditLine i.call.op i.call.context outcome]⟩) := by
  obtain ⟨tables, world, stdout⟩ := s
  obtain ⟨tables', world', stdout'⟩ := s'
  obtain rfl : tables = tables' := htables
  obtain rfl : world = world' := hworld
  cases hgate : i.gate with
  | error e => exact ⟨_, _, _, _, serve_rejected hgate, serve_rejected hgate⟩
  | ok u =>
    cases hallow : (g.limiter.allow tables i.moment.now i.moment.order i.tenantID i.call.op).1 with
    | true => exact ⟨_, _, _, _, serve_done hgate hallow, serve_done hgate hallow⟩
    | false => exact ⟨_, _, _, _, serve_limited hgate hallow, serve_limited hgate hallow⟩

/-- Every call writes its line, whatever comes of it. -/
lemma stdout_serve : (g.serve P C hmac s i).2.stdout =
    s.stdout ++ [i.line (g.serve P C hmac s i).1] := by
  unfold Incoming.line
  cases hgate : i.gate with
  | error e =>
    rw [serve_rejected hgate]
    rfl
  | ok u =>
    cases hallow :
        (g.limiter.allow s.tables i.moment.now i.moment.order i.tenantID i.call.op).1 with
    | true =>
      have hwork := @limited_work P C hmac g s.world i.draws i.call
      rw [serve_done hgate hallow, hwork]
      rfl
    | false =>
      have hlimited := (@limited_iff P C hmac g s i).mpr ⟨hgate, hallow⟩
      rw [hlimited, serve_limited hgate hallow]
      rfl

/-- Calls that the gate refuses leave their audit lines and nothing else: taken out of a run,
they change no other answer, no budget and no key material, and of the lines only theirs go. -/
theorem refusals_invisible (P : Webauthn.Platform) (C : Cipher) (hmac : Bytes → Bytes → Index)
    (g : Guard) (s : State) (is : List Incoming) :
    (Machine.transcript (g.serve P C hmac) s is).filter (fun x => x.1.gate.isOk) =
        Machine.transcript (g.serve P C hmac) s (is.filter fun i => i.gate.isOk) ∧
      (Machine.after (g.serve P C hmac) s (is.filter fun i => i.gate.isOk)).tables =
        (Machine.after (g.serve P C hmac) s is).tables ∧
      (Machine.after (g.serve P C hmac) s (is.filter fun i => i.gate.isOk)).world =
        (Machine.after (g.serve P C hmac) s is).world ∧
      (Machine.after (g.serve P C hmac) s is).stdout =
        s.stdout ++ (Machine.transcript (g.serve P C hmac) s is).map (fun x => x.1.line x.2) ∧
      (Machine.after (g.serve P C hmac) s (is.filter fun i => i.gate.isOk)).stdout =
        s.stdout ++ ((Machine.transcript (g.serve P C hmac) s is).filter
          (fun x => x.1.gate.isOk)).map (fun x => x.1.line x.2) := by
  have hfiltered : (Machine.transcript (g.serve P C hmac) s is).filter (fun x => x.1.gate.isOk) =
        Machine.transcript (g.serve P C hmac) s (is.filter fun i => i.gate.isOk) ∧
      (Machine.after (g.serve P C hmac) s (is.filter fun i => i.gate.isOk)).tables =
        (Machine.after (g.serve P C hmac) s is).tables ∧
      (Machine.after (g.serve P C hmac) s (is.filter fun i => i.gate.isOk)).world =
        (Machine.after (g.serve P C hmac) s is).world := by
    refine Machine.transcript_filter (p := fun i : Incoming => i.gate.isOk)
      (R := fun _ (s s' : State) => s'.tables = s.tables ∧ s'.world = s.world) ⟨rfl, rfl⟩ ?_ ?_
    · rintro i - s s' ⟨htables, hworld⟩ hp
      cases hgate : i.gate with
      | ok u =>
        rw [hgate] at hp
        cases hp
      | error e =>
        rw [serve_rejected hgate]
        exact ⟨htables, hworld⟩
    · rintro i - s s' ⟨htables, hworld⟩ -
      obtain ⟨answer, tables, world, outcome, hs, hs'⟩ :=
        @serve_congr P C hmac g _ _ i htables.symm hworld.symm
      rw [hs, hs']
      exact ⟨rfl, rfl, rfl⟩
  obtain ⟨hanswers, htables, hworld⟩ := hfiltered
  refine ⟨hanswers, htables, hworld, Machine.log_after fun s i => stdout_serve, ?_⟩
  rw [hanswers]
  exact Machine.log_after fun s i => stdout_serve

/-- The context with another subject. -/
def RequestContext.mapSubject (f : Bytes → Bytes) (c : RequestContext) : RequestContext :=
  { c with subjectID := f c.subjectID }

def Call.mapSubject (f : Bytes → Bytes) : Call → Call
  | .verifyAssertion req =>
    .verifyAssertion { req with context := req.context.map (RequestContext.mapSubject f) }
  | .encryptField req =>
    .encryptField { req with context := req.context.map (RequestContext.mapSubject f) }
  | .decryptField req =>
    .decryptField { req with context := req.context.map (RequestContext.mapSubject f) }
  | .blindIndex req =>
    .blindIndex { req with context := req.context.map (RequestContext.mapSubject f) }

def Incoming.mapSubject (f : Bytes → Bytes) (i : Incoming) : Incoming :=
  { i with call := i.call.mapSubject f }

section subject
variable {f : Bytes → Bytes} {ctx : Option RequestContext} {call : Call}

@[simp] lemma context_mapSubject :
    (call.mapSubject f).context = call.context.map (RequestContext.mapSubject f) := by
  cases call <;> rfl

@[simp] lemma op_mapSubject : (call.mapSubject f).op = call.op := by
  cases call <;> rfl

@[simp] lemma tenantOf_mapSubject :
    tenantOf (ctx.map (RequestContext.mapSubject f)) = tenantOf ctx := by
  cases ctx <;> rfl

@[simp] lemma auditLine_mapSubject {op outcome : Bytes} :
    auditLine op (ctx.map (RequestContext.mapSubject f)) outcome = auditLine op ctx outcome := by
  cases ctx <;> rfl

@[simp] lemma audit_mapSubject {op outcome : Bytes} :
    s.audit op (ctx.map (RequestContext.mapSubject f)) outcome = s.audit op ctx outcome := by
  simp only [State.audit, auditLine_mapSubject]

@[simp] lemma refused_mapSubject {e : Status} : (call.mapSubject f).refused e = call.refused e := by
  cases call <;> rfl

@[simp] lemma work_mapSubject {w : World} {r : Draws} :
    g.work P C hmac w r (call.mapSubject f) = g.work P C hmac w r call := by
  cases call <;>
    simp only [Call.mapSubject, Guard.work, Guard.sealRow, Guard.sealUnder, assess,
      tenantOf_mapSubject]

/-- The gate asks only whether there is a subject. -/
lemma gate_mapSubject (hf : ∀ b, f b = [] ↔ b = []) : (i.mapSubject f).gate = i.gate := by
  have hpurpose : (i.call.mapSubject f).purpose = i.call.purpose := by cases i.call <;> rfl
  have hrequired : (i.call.mapSubject f).subjectRequired = i.call.subjectRequired := by
    cases i.call <;> rfl
  simp only [Incoming.gate, Incoming.mapSubject, context_mapSubject, hpurpose, hrequired]
  cases i.call.context with
  | none => rfl
  | some c =>
    have hempty : decide (f c.subjectID = []) = decide (c.subjectID = []) :=
      decide_eq_decide.mpr (hf c.subjectID)
    simp only [validate, Option.map_some, RequestContext.mapSubject, RequestContext.getPurpose,
      hempty]
    rfl

end subject

/-- The subject of a call matters only in that there is one: with other subjects in their place,
every answer, the limiter, the key material and the whole log stay as they are. -/
theorem subject_unbound (P : Webauthn.Platform) (C : Cipher) (hmac : Bytes → Bytes → Index)
    (g : Guard) (s : State) (is : List Incoming) {f : Bytes → Bytes} (hf : ∀ b, f b = [] ↔ b = []) :
    (Machine.transcript (g.serve P C hmac) s (is.map (Incoming.mapSubject f))).map Prod.snd =
        (Machine.transcript (g.serve P C hmac) s is).map Prod.snd ∧
      Machine.after (g.serve P C hmac) s (is.map (Incoming.mapSubject f)) =
        Machine.after (g.serve P C hmac) s is := by
  refine Machine.transcript_map fun s i => ?_
  rw [serve_eq, serve_eq, gate_mapSubject hf]
  simp only [Incoming.tenantID, Incoming.mapSubject, context_mapSubject, op_mapSubject,
    tenantOf_mapSubject, audit_mapSubject, refused_mapSubject, work_mapSubject]
  rfl

end marks

namespace Row

/-- Two tenants and a health probe, in the order in which they call. -/
def calls : List Incoming :=
  [⟨⟨0, []⟩, ⟨dek, wrapNonce, nameNonce⟩, .encryptField mint⟩,
    ⟨⟨1, []⟩, ⟨dek, wrapNonce, nameNonce⟩, .decryptField ⟨some ⟨ascii "t2", ascii "s2", 3,
      ascii "req-2"⟩, nameField.box, wrapped.box⟩⟩,
    ⟨⟨1, []⟩, ⟨dek, wrapNonce, nameNonce⟩, .verifyAssertion ⟨none, [], [], [], none, none⟩⟩,
    ⟨⟨2, []⟩, ⟨dek, wrapNonce, nameNonce⟩, .decryptField ⟨context 3, nameField.box, wrapped.box⟩⟩]

def platform : Webauthn.Platform :=
  ⟨Crypto.ofTables [] [], fun _ => none, fun _ => none, fun _ => none, fun _ => none⟩

/-- No call of the run reads an index. -/
def hmac (_key _message : Bytes) : Index := ⟨List.replicate 32 0, rfl⟩

end Row

theorem subject_unbound_row :
    (Machine.transcript (Row.guard.serve Row.platform Row.cipher Row.hmac) .start
        (Row.calls.map (Incoming.mapSubject (List.map (· + 1))))).map Prod.snd =
      (Machine.transcript (Row.guard.serve Row.platform Row.cipher Row.hmac) .start
        Row.calls).map Prod.snd :=
  (subject_unbound Row.platform Row.cipher Row.hmac Row.guard .start Row.calls
    fun _ => List.map_eq_nil_iff).1

end AiAuth.CryptoService
