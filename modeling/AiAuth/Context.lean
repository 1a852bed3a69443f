import AiAuth.Messages

/-!
# The request gate

Every request to the Guard says whom it is for and why. The gate answers before any budget
is touched and before any work is done.
-/
namespace AiAuth.CryptoService
open Library

inductive Code
  | invalidArgument
  | permissionDenied
  | resourceExhausted
  | unimplemented
  | internal
  deriving DecidableEq

/-- A gRPC status: what a caller sees of a failure. -/
structure Status where
  code : Code
  message : Bytes
  deriving DecidableEq

/-- Structural checks first, then the purpose. -/
def validate (ctx : Option RequestContext) (want : Purpose) (subjectRequired : Bool) :
    Except Status Unit :=
  match ctx with
  | none => .error ⟨.invalidArgument, ascii "request_context is required"⟩
  | some ctx =>
    if ctx.requestID = [] then
      .error ⟨.invalidArgument,
        ascii "request_id is required: every key operation is individually audited"⟩
    else if ctx.tenantID = [] then
      .error ⟨.invalidArgument, ascii "tenant_id is required (T10)"⟩
    else if subjectRequired && ctx.subjectID = [] then
      .error ⟨.invalidArgument, ascii "subject_id is required for row operations"⟩
    else if ctx.getPurpose = .unspecified then
      .error ⟨.invalidArgument, ascii "PURPOSE_UNSPECIFIED is always rejected (T9)"⟩
    else if ctx.getPurpose ≠ want then
      .error ⟨.permissionDenied, ascii "purpose " ++ ctx.getPurpose.debug ++
        ascii " does not match this operation (T9)"⟩
    else .ok ()

/-- The tenant of a validated context. -/
def tenantOf (ctx : Option RequestContext) : Bytes := (ctx.map RequestContext.tenantID).getD []

/-- What the gate lets through names a request, a tenant and the purpose that is wanted. -/
theorem validate_ok {ctx : Option RequestContext} {want : Purpose} {subjectRequired : Bool}
    (h : validate ctx want subjectRequired = .ok ()) :
    ∃ c, ctx = some c ∧ c.requestID ≠ [] ∧ c.tenantID ≠ [] ∧
      (subjectRequired = true → c.subjectID ≠ []) ∧ c.getPurpose = want ∧ want ≠ .unspecified := by
  unfold validate at h
  split at h
  · cases h
  next c =>
    split_ifs at h with hrequest htenant hsubject hunspecified hwant
    refine ⟨c, rfl, hrequest, htenant, fun hreq hnil => hsubject ?_, not_not.mp hwant, ?_⟩
    · rw [hreq, hnil]
      rfl
    · exact fun hw => hunspecified ((not_not.mp hwant).trans hw)

/-- What the gate answers is the caller's mistake. -/
lemma validate_error {ctx : Option RequestContext} {want : Purpose} {subjectRequired : Bool}
    {e : Status} (h : validate ctx want subjectRequired = .error e) : e.code ≠ .internal := by
  unfold validate at h
  split at h
  · obtain rfl := Except.error.inj h
    exact Code.noConfusion
  next c =>
    split_ifs at h <;> obtain rfl := Except.error.inj h <;> exact Code.noConfusion

end AiAuth.CryptoService
