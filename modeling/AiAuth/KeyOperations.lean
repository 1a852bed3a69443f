import AiAuth.Service

/-!
# What a handler does, in order

The record that the four handlers of the Guard keep, over any provider.
-/
namespace AiAuth.CryptoService
open Library Limits

section handlers
variable {W α : Type}

/-! ## The record of one call -/

/-- What a part of a handler added to the record: its actions, and its lines. -/
structure Adds (w w' : Watch W) (actions : List Action) (lines : List Bytes) : Prop where
  actions : w'.actions = w.actions ++ actions
  stdout : w'.stdout = w.stdout ++ lines

namespace Adds

variable {w w' w'' : Watch W} {as bs : List Action} {ls ms : List Bytes}

lemma refl : Adds w w [] [] := ⟨by simp, by simp⟩

lemma trans (h : Adds w w' as ls) (h' : Adds w' w'' bs ms) : Adds w w'' (as ++ bs) (ls ++ ms) :=
  ⟨by rw [h'.actions, h.actions, List.append_assoc], by rw [h'.stdout, h.stdout, List.append_assoc]⟩

lemma audit {op outcome : Bytes} {ctx : Option RequestContext} :
    Adds w (w.audit op ctx outcome) [.audit op outcome] [auditLine op ctx outcome] := ⟨rfl, rfl⟩

lemma note {work : Work} : Adds w (w.note work) [.work work] [] := ⟨rfl, by simp [Watch.note]⟩

lemma of_run {work : Work} {f : W → Except ProviderError α × W} {res : Except ProviderError α}
    (h : w.run work f = (res, w')) : Adds w w' [.work work] [] := by
  obtain ⟨-, rfl⟩ := Prod.mk.inj h
  exact ⟨rfl, (List.append_nil _).symm⟩

end Adds

/-- Some cryptography, and then one audit line. -/
def Works (op : Bytes) (ctx : Option RequestContext) (w w' : Watch W) (outcome : Bytes) : Prop :=
  ∃ works : List Work, Adds w w' (works.map .work ++ [.audit op outcome]) [auditLine op ctx outcome]

/-- The outcome that says the work was done. -/
def success (outcome : Bytes) : Bool := outcome = ascii "ok" || outcome = ascii "verified"

section bodies
variable {op outcome : Bytes} {ctx : Option RequestContext} {w w' w'' : Watch W}

lemma works_audit : Works op ctx w (w.audit op ctx outcome) outcome := ⟨[], Adds.audit⟩

lemma works_after {work : Work} (h : Adds w w' [.work work] []) (h' : Works op ctx w' w'' outcome) :
    Works op ctx w w'' outcome := by
  obtain ⟨works, hw⟩ := h'
  exact ⟨work :: works, by simpa using h.trans hw⟩

lemma works_fail {e : ProviderError} :
    Works op ctx w (Handlers.fail w op ctx e).2 (ascii "denied") := by
  cases e <;> exact works_audit

end bodies

/-- The operation and the outcome of an audit line. -/
def Action.audited : Action → Option (Bytes × Bytes)
  | .audit op outcome => some (op, outcome)
  | _ => none

/-- The context names a request, a tenant and, where one is required, a subject, and its
purpose is the one that is wanted. -/
def Permits (ctx : Option RequestContext) (want : Purpose) (subjectRequired : Bool) : Prop :=
  ∃ c, ctx = some c ∧ c.requestID ≠ [] ∧ c.tenantID ≠ [] ∧
    (subjectRequired = true → c.subjectID ≠ []) ∧ c.getPurpose = want

/-- What a call may add to the record: one audit line, whose outcome says whether the answer
carries a result, and cryptography only behind the gate and the budget. -/
structure Gated (h : Handlers W) (m : Moment) (op : Bytes) (want : Purpose)
    (subjectRequired : Bool) (ctx : Option RequestContext) (w w' : Watch W) (carries : Bool)
    (acts : List Action) (outcome : Bytes) : Prop where
  actions : w'.actions = w.actions ++ acts
  stdout : w'.stdout = w.stdout ++ [auditLine op ctx outcome]
  once : acts.filterMap Action.audited = [(op, outcome)]
  outcome : success outcome = carries
  gate : ∀ pre work post, acts = pre ++ .work work :: post →
    Permits ctx want subjectRequired ∧ .allow (tenantOf ctx) op true ∈ pre ∧
      (h.limiter.allow w.tables m.now m.order (tenantOf ctx) op).1 = true
  refused : ∀ e, validate ctx want subjectRequired = .error e →
    w'.tables = w.tables ∧ w'.world = w.world ∧ acts = [.audit op (ascii "rejected")]

section gated
variable {h : Handlers W} {m : Moment} {op outcome : Bytes} {want : Purpose}
  {subjectRequired : Bool}
  {ctx : Option RequestContext} {w w' : Watch W}

/-- The answer of the limiter is on record before anything else happens. -/
lemma withinLimits_cases {res : Except Status Unit}
    (hl : h.withinLimits w m op ctx (tenantOf ctx) = (res, w')) :
    (res = .ok () ∧ (h.limiter.allow w.tables m.now m.order (tenantOf ctx) op).1 = true ∧
      Adds w w' [.allow (tenantOf ctx) op true] []) ∨
    (res ≠ .ok () ∧ Adds w w' [.allow (tenantOf ctx) op false, .audit op (ascii "rate_limited")]
      [auditLine op ctx (ascii "rate_limited")]) := by
  unfold Handlers.withinLimits at hl
  dsimp only at hl
  cases hgranted : (h.limiter.allow w.tables m.now m.order (tenantOf ctx) op).1 with
  | true =>
    rw [hgranted] at hl
    obtain ⟨rfl, rfl⟩ := Prod.mk.inj hl
    exact .inl ⟨rfl, rfl, rfl, (List.append_nil _).symm⟩
  | false =>
    rw [hgranted] at hl
    obtain ⟨rfl, rfl⟩ := Prod.mk.inj hl
    exact .inr ⟨by simp, by simp [Watch.audit], rfl⟩

lemma gated_rejected :
    Gated h m op want subjectRequired ctx w (w.audit op ctx (ascii "rejected")) false
      [.audit op (ascii "rejected")] (ascii "rejected") where
  actions := rfl
  stdout := rfl
  once := rfl
  outcome := by decide
  gate pre work post hacts := by
    cases pre with
    | nil => cases hacts
    | cons a pre => simp at hacts
  refused _ _ := ⟨rfl, rfl, rfl⟩

lemma gated_limited (hv : validate ctx want subjectRequired = .ok ())
    (hadds : Adds w w' [.allow (tenantOf ctx) op false, .audit op (ascii "rate_limited")]
      [auditLine op ctx (ascii "rate_limited")]) :
    Gated h m op want subjectRequired ctx w w' false
      [.allow (tenantOf ctx) op false, .audit op (ascii "rate_limited")] (ascii "rate_limited") where
  actions := hadds.actions
  stdout := hadds.stdout
  once := rfl
  outcome := by decide
  gate pre work post hacts := by
    have hmem : Action.work work ∈ [.allow (tenantOf ctx) op false,
        .audit op (ascii "rate_limited")] := hacts ▸ List.mem_append_right _ List.mem_cons_self
    simp at hmem
  refused e he := by rw [hv] at he; cases he

lemma gated_served {carries : Bool} {w'' : Watch W}
    (hv : validate ctx want subjectRequired = .ok ())
    (hgranted : (h.limiter.allow w.tables m.now m.order (tenantOf ctx) op).1 = true)
    (hallow : Adds w w' [.allow (tenantOf ctx) op true] [])
    (hworks : Works op ctx w' w'' outcome) (hsuccess : success outcome = carries) :
    ∃ acts, Gated h m op want subjectRequired ctx w w'' carries acts outcome := by
  obtain ⟨works, hadds⟩ := hworks
  have hall := hallow.trans hadds
  refine ⟨_, hall.actions, hall.stdout, ?_, hsuccess, ?_, fun e he => ?_⟩
  · have hnone : (works.map Action.work).filterMap Action.audited = [] := by
      simp [List.filterMap_eq_nil_iff, Action.audited]
    rw [List.singleton_append, List.filterMap_cons_none rfl, List.filterMap_append, hnone]
    rfl
  · intro pre work post hacts
    obtain ⟨c, hc, hrequest, htenant, hsubject, hpurpose, -⟩ := validate_ok hv
    refine ⟨⟨c, hc, hrequest, htenant, hsubject, hpurpose⟩, ?_, hgranted⟩
    cases pre with
    | nil => cases hacts
    | cons a pre =>
      obtain ⟨rfl, -⟩ := List.cons.inj hacts
      exact List.mem_cons_self
  · rw [hv] at he
    cases he

/-- A handler whose work audits once keeps the order. -/
lemma gated_of_body {body : Watch W → Except Status α × Watch W} {f : Except Status α → Bool}
    (herror : ∀ e, f (.error e) = false)
    (hbody : ∀ w, ∃ outcome, Works op ctx w (body w).2 outcome ∧
      success outcome = f (body w).1) :
    ∃ acts outcome, Gated h m op want subjectRequired ctx w
      (h.gated w m op want subjectRequired ctx body).2
      (f (h.gated w m op want subjectRequired ctx body).1) acts outcome := by
  unfold Handlers.gated
  cases hv : validate ctx want subjectRequired with
  | error e => exact ⟨_, _, by simpa only [herror] using gated_rejected⟩
  | ok u =>
    cases hl : h.withinLimits w m op ctx (tenantOf ctx) with
    | mk res w' =>
      rcases withinLimits_cases hl with ⟨rfl, hgranted, hadds⟩ | ⟨hres, hadds⟩
      · obtain ⟨outcome, hworks, hsuccess⟩ := hbody w'
        obtain ⟨acts, hgated⟩ := gated_served hv hgranted hadds hworks hsuccess
        exact ⟨acts, outcome, hgated⟩
      · cases res with
        | ok u => exact absurd rfl hres
        | error e => exact ⟨_, _, by simpa only [herror] using gated_limited hv hadds⟩

end gated

/-! ## The four handlers -/

/-- A request to the Guard. -/
inductive Call
  | verifyAssertion (req : VerifyAssertionRequest)
  | encryptField (req : EncryptFieldRequest)
  | decryptField (req : DecryptFieldRequest)
  | blindIndex (req : BlindIndexRequest)

namespace Call

def op : Call → Bytes
  | .verifyAssertion _ => ascii "verify_assertion"
  | .encryptField _ => ascii "encrypt_field"
  | .decryptField _ => ascii "decrypt_field"
  | .blindIndex _ => ascii "blind_index"

def context : Call → Option RequestContext
  | .verifyAssertion req => req.context
  | .encryptField req => req.context
  | .decryptField req => req.context
  | .blindIndex req => req.context

def purpose : Call → Purpose
  | .verifyAssertion _ => .passkeyLogin
  | .encryptField _ => .rowEncrypt
  | .decryptField _ => .rowDecrypt
  | .blindIndex _ => .blindIndex

/-- The row operations need a subject. -/
def subjectRequired : Call → Bool
  | .encryptField _ | .decryptField _ => true
  | _ => false

end Call

inductive Answer
  | verifyAssertion (res : Except Status VerifyAssertionResponse)
  | encryptField (res : Except Status EncryptFieldResponse)
  | decryptField (res : Except Status DecryptFieldResponse)
  | blindIndex (res : Except Status BlindIndexResponse)

/-- The answer carries the result of its operation, or a positive verdict. -/
def Answer.carries : Answer → Bool
  | .verifyAssertion (.ok resp) => resp.verdict = verdictVerified
  | .encryptField (.ok _) | .decryptField (.ok _) | .blindIndex (.ok _) => true
  | _ => false

def Handlers.serve (P : Webauthn.Platform) (h : Handlers W) (w : Watch W) (m : Moment) :
    Call → Answer × Watch W
  | .verifyAssertion req =>
    let res := h.verifyAssertion P w m req
    (.verifyAssertion res.1, res.2)
  | .encryptField req =>
    let res := h.encryptField w m req
    (.encryptField res.1, res.2)
  | .decryptField req =>
    let res := h.decryptField w m req
    (.decryptField res.1, res.2)
  | .blindIndex req =>
    let res := h.blindIndex w m req
    (.blindIndex res.1, res.2)

section served
variable {P : Webauthn.Platform} {h : Handlers W} {w : Watch W} {m : Moment}

lemma success_ok : success (ascii "ok") = true := by decide

lemma success_verified : success (ascii "verified") = true := by decide

lemma success_rejected : success (ascii "rejected") = false := by decide

lemma success_denied : success (ascii "denied") = false := by decide

lemma success_backendError : success (ascii "backend_error") = false := by decide

/-- No rejection is called a success. -/
lemma success_code (rejection : Webauthn.Rejection) : success rejection.code = false := by
  cases rejection <;> decide

lemma verifyAssertion_gated (req : VerifyAssertionRequest) :
    ∃ acts outcome, Gated h m (ascii "verify_assertion") .passkeyLogin false req.context w
      (h.verifyAssertion P w m req).2
      (Answer.verifyAssertion (h.verifyAssertion P w m req).1).carries acts outcome := by
  refine gated_of_body (f := fun r => (Answer.verifyAssertion r).carries) (fun _ => rfl)
    fun w => ?_
  cases req.credential with
  | none => exact ⟨_, works_audit, success_rejected⟩
  | some cred =>
    cases req.assertion with
    | none => exact ⟨_, works_audit, success_rejected⟩
    | some assertion =>
      dsimp only
      split
      · exact ⟨_, works_after Adds.note works_audit, success_verified⟩
      next rejection _ => exact ⟨_, works_after Adds.note works_audit, success_code rejection⟩

lemma encryptField_gated (req : EncryptFieldRequest) :
    ∃ acts outcome, Gated h m (ascii "encrypt_field") .rowEncrypt true req.context w
      (h.encryptField w m req).2 (Answer.encryptField (h.encryptField w m req).1).carries
      acts outcome := by
  refine gated_of_body (f := fun r => (Answer.encryptField r).carries) (fun _ => rfl)
    fun w => ?_
  have hseal : ∀ wrapped w, ∃ outcome, Works (ascii "encrypt_field") req.context w
      (h.sealField w req wrapped).2 outcome ∧
      success outcome = (Answer.encryptField (h.sealField w req wrapped).1).carries := by
    intro wrapped w
    unfold Handlers.sealField
    dsimp only
    split
    next hrun => exact ⟨_, works_after (Adds.of_run hrun) works_audit, success_ok⟩
    next hrun => exact ⟨_, works_after (Adds.of_run hrun) works_fail, success_denied⟩
  dsimp only
  by_cases hempty : req.wrappedDek = []
  · simp only [Handlers.rowKey, if_pos hempty]
    split
    next hrun => exact ⟨_, works_after (Adds.of_run hrun) works_fail, success_denied⟩
    next wrapped w' hrun =>
      obtain ⟨outcome, hworks, hsuccess⟩ := hseal wrapped w'
      exact ⟨outcome, works_after (Adds.of_run hrun) hworks, hsuccess⟩
  · simp only [Handlers.rowKey, if_neg hempty]
    exact hseal req.wrappedDek w

lemma decryptField_gated (req : DecryptFieldRequest) :
    ∃ acts outcome, Gated h m (ascii "decrypt_field") .rowDecrypt true req.context w
      (h.decryptField w m req).2 (Answer.decryptField (h.decryptField w m req).1).carries
      acts outcome := by
  refine gated_of_body (f := fun r => (Answer.decryptField r).carries) (fun _ => rfl)
    fun w => ?_
  dsimp only
  split
  next hrun => exact ⟨_, works_after (Adds.of_run hrun) works_audit, success_ok⟩
  next hrun => exact ⟨_, works_after (Adds.of_run hrun) works_fail, success_denied⟩

lemma blindIndex_gated (req : BlindIndexRequest) :
    ∃ acts outcome, Gated h m (ascii "blind_index") .blindIndex false req.context w
      (h.blindIndex w m req).2 (Answer.blindIndex (h.blindIndex w m req).1).carries
      acts outcome := by
  refine gated_of_body (f := fun r => (Answer.blindIndex r).carries) (fun _ => rfl) fun w => ?_
  split
  next hrun => exact ⟨_, works_after (Adds.of_run hrun) works_audit, success_ok⟩
  next hrun => exact ⟨_, works_after (Adds.of_run hrun) works_audit, success_backendError⟩

/-- Every call to the Guard, over every provider and from every state of the limiter, is gated,
budgeted and audited once. -/
theorem serve_gated (P : Webauthn.Platform) (h : Handlers W) (w : Watch W) (m : Moment)
    (call : Call) : ∃ acts outcome, Gated h m call.op call.purpose call.subjectRequired call.context
      w (h.serve P w m call).2 (h.serve P w m call).1.carries acts outcome := by
  cases call with
  | verifyAssertion req => exact verifyAssertion_gated req
  | encryptField req => exact encryptField_gated req
  | decryptField req => exact decryptField_gated req
  | blindIndex req => exact blindIndex_gated req

end served
end handlers

end AiAuth.CryptoService
