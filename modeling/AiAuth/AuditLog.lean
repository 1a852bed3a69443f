import AiAuth.KeyOperations
import AiAuth.Library.JsonText

/-!
# The audit log as text

An audit record is written by putting its fields between quotes as they are. It reads back as
what was written only where no field holds a quote, a backslash or a control character; tenant
and request come from the caller.
-/
namespace AiAuth.CryptoService
open Library JsonText Limits

def newline : UInt8 := 10

/-- The request of a context, empty where there is none. -/
def requestOf (ctx : Option RequestContext) : Bytes := (ctx.map RequestContext.requestID).getD []

/-- What an audit record says. -/
def auditFields (op : Bytes) (ctx : Option RequestContext) (outcome : Bytes) :
    List (Bytes × Bytes) :=
  [(ascii "audit", ascii "key_op"), (ascii "op", op), (ascii "tenant", tenantOf ctx),
    (ascii "request", requestOf ctx), (ascii "outcome", outcome)]

/-- The record is one line of JSON that says what it should, and no other record is written as
the same line. -/
structure Unforgeable (op : Bytes) (ctx : Option RequestContext) (outcome : Bytes) : Prop where
  line : ∃ text, auditLine op ctx outcome = text ++ [newline] ∧ newline ∉ text ∧
    ∃ ms, readObject text = some ms ∧ ms.Perm (auditFields op ctx outcome)
  alone : ∀ op' ctx' outcome', auditLine op' ctx' outcome' = auditLine op ctx outcome →
    auditFields op' ctx' outcome' = auditFields op ctx outcome

section record
variable {op outcome : Bytes} {ctx : Option RequestContext}

lemma auditLine_eq (op : Bytes) (ctx : Option RequestContext) (outcome : Bytes) :
    auditLine op ctx outcome = write (auditFields op ctx outcome) ++ [newline] := by
  simp only [auditLine, auditFields, write, writeMembers, writeMember, quote, List.append_assoc,
    List.cons_append, List.nil_append]
  rfl

/-- The words that the Guard itself puts into a record. -/
lemma plain_words : ∀ word ∈ [ascii "audit", ascii "key_op", ascii "op", ascii "tenant",
    ascii "request", ascii "outcome", ascii "verify_assertion", ascii "encrypt_field",
    ascii "decrypt_field", ascii "blind_index", ascii "ok", ascii "verified", ascii "rejected",
    ascii "denied", ascii "rate_limited", ascii "backend_error"] ++
      [.malformedClientData, .wrongType, .challengeMismatch, .originMismatch, .rpIdMismatch,
        .userNotPresent, .signCountRegression, .malformedAuthenticatorData, .unsupportedKey,
        .badSignature].map Webauthn.Rejection.code, Plain word := by
  decide +kernel

lemma allPlain_auditFields : AllPlain (auditFields op ctx outcome) ↔
    Plain op ∧ Plain (tenantOf ctx) ∧ Plain (requestOf ctx) ∧ Plain outcome := by
  have haudit : Plain (ascii "audit") := plain_words _ (by simp)
  have hkeyOp : Plain (ascii "key_op") := plain_words _ (by simp)
  have hop : Plain (ascii "op") := plain_words _ (by simp)
  have htenant : Plain (ascii "tenant") := plain_words _ (by simp)
  have hrequest : Plain (ascii "request") := plain_words _ (by simp)
  have houtcome : Plain (ascii "outcome") := plain_words _ (by simp)
  simp only [AllPlain, auditFields, List.forall_mem_cons, haudit, hkeyOp, hop, htenant, hrequest,
    houtcome, true_and, List.not_mem_nil, false_imp_iff, implies_true, and_true]

/-- A record cannot be forged exactly where its fields are plain. -/
theorem unforgeable_iff : Unforgeable op ctx outcome ↔
    Plain op ∧ Plain (tenantOf ctx) ∧ Plain (requestOf ctx) ∧ Plain outcome := by
  have hne : auditFields op ctx outcome ≠ [] := by simp [auditFields]
  rw [← allPlain_auditFields]
  constructor
  · rintro ⟨⟨text, hline, -, hread⟩, -⟩
    rw [auditLine_eq] at hline
    rw [← (List.append_inj' hline rfl).1] at hread
    exact (reads_back_iff hne).mp hread
  · intro hplain
    refine ⟨⟨_, auditLine_eq op ctx outcome, ?_, (reads_back_iff hne).mpr hplain⟩,
      fun op' ctx' outcome' hline => ?_⟩
    · have hbytes := (forall_mem_write (p := (32 ≤ ·)) le_of_mem_marks).mpr fun m hm =>
        ⟨fun b hb => ((hplain m hm).1 b hb).2.2, fun b hb => ((hplain m hm).2 b hb).2.2⟩
      exact fun hmem => absurd (hbytes _ hmem) (by decide)
    · rw [auditLine_eq, auditLine_eq] at hline
      exact write_inj hplain rfl (List.append_inj' hline rfl).1

end record

/-! ## What a call writes -/

section calls
variable {W α : Type}

/-- A part of a handler writes one record, and its outcome is plain. -/
def Records (op : Bytes) (ctx : Option RequestContext) (w w' : Watch W) : Prop :=
  ∃ outcome, Plain outcome ∧ w'.stdout = w.stdout ++ [auditLine op ctx outcome]

section records
variable {op outcome : Bytes} {ctx : Option RequestContext} {w w' w'' : Watch W}

lemma records_audit (h : Plain outcome) : Records op ctx w (w.audit op ctx outcome) :=
  ⟨outcome, h, rfl⟩

/-- What comes before writes nothing. -/
lemma Records.of_stdout (h : Records op ctx w' w'') (hw : w'.stdout = w.stdout) :
    Records op ctx w w'' := by
  obtain ⟨outcome, hplain, hstdout⟩ := h
  exact ⟨outcome, hplain, by rw [hstdout, hw]⟩

lemma run_stdout {work : Work} {f : W → Except ProviderError α × W} {res : Except ProviderError α}
    (h : w.run work f = (res, w')) : w'.stdout = w.stdout := by
  obtain ⟨-, rfl⟩ := Prod.mk.inj h
  rfl

lemma records_fail {e : ProviderError} : Records op ctx w (Handlers.fail w op ctx e).2 := by
  cases e <;> exact records_audit (plain_words _ (by simp))

lemma records_gated {h : Handlers W} {m : Moment} {want : Purpose} {subjectRequired : Bool}
    {body : Watch W → Except Status α × Watch W}
    (hbody : ∀ w, Records op ctx w (body w).2) :
    Records op ctx w (h.gated w m op want subjectRequired ctx body).2 := by
  unfold Handlers.gated
  cases validate ctx want subjectRequired with
  | error e => exact records_audit (plain_words _ (by simp))
  | ok u =>
    dsimp only [Handlers.withinLimits]
    cases (h.limiter.allow w.tables m.now m.order (tenantOf ctx) op).1 with
    | true => exact (hbody _).of_stdout rfl
    | false => exact (records_audit (plain_words _ (by simp))).of_stdout rfl

end records

section serve
variable {P : Webauthn.Platform} {h : Handlers W} {w : Watch W} {m : Moment}

lemma plain_code (rejection : Webauthn.Rejection) : Plain rejection.code := by
  cases rejection <;> exact plain_words _ (List.mem_append_right _ (List.mem_map_of_mem (by simp)))

lemma plain_op (call : Call) : Plain call.op := by
  cases call <;> exact plain_words _ (by simp [Call.op])

/-- Every call writes one record, and only its tenant and request can fail to be plain. -/
lemma records_serve (P : Webauthn.Platform) (h : Handlers W) (w : Watch W) (m : Moment)
    (call : Call) : Records call.op call.context w (h.serve P w m call).2 := by
  cases call with
  | verifyAssertion req =>
    refine records_gated fun w => ?_
    cases req.credential with
    | none => exact records_audit (plain_words _ (by simp))
    | some cred =>
      cases req.assertion with
      | none => exact records_audit (plain_words _ (by simp))
      | some assertion =>
        dsimp only
        split
        · exact (records_audit (plain_words _ (by simp))).of_stdout rfl
        · exact (records_audit (plain_code _)).of_stdout rfl
  | encryptField req =>
    refine records_gated fun w => ?_
    have hseal : ∀ wrapped w,
        Records (ascii "encrypt_field") req.context w (h.sealField w req wrapped).2 := by
      intro wrapped w
      unfold Handlers.sealField
      dsimp only
      split
      next hrun => exact (records_audit (plain_words _ (by simp))).of_stdout (run_stdout hrun)
      next hrun => exact records_fail.of_stdout (run_stdout hrun)
    dsimp only
    by_cases hempty : req.wrappedDek = []
    · simp only [Handlers.rowKey, if_pos hempty]
      split
      next hrun => exact records_fail.of_stdout (run_stdout hrun)
      next hrun => exact (hseal _ _).of_stdout (run_stdout hrun)
    · simp only [Handlers.rowKey, if_neg hempty]
      exact hseal req.wrappedDek w
  | decryptField req =>
    refine records_gated fun w => ?_
    dsimp only
    split
    next hrun => exact (records_audit (plain_words _ (by simp))).of_stdout (run_stdout hrun)
    next hrun => exact records_fail.of_stdout (run_stdout hrun)
  | blindIndex req =>
    refine records_gated fun w => ?_
    split
    next hrun => exact (records_audit (plain_words _ (by simp))).of_stdout (run_stdout hrun)
    next hrun => exact (records_audit (plain_words _ (by simp))).of_stdout (run_stdout hrun)

/-- A record is safe exactly where its fields are plain; a call writes one record, which is safe
exactly where its tenant and its request are. -/
theorem audit_log (P : Webauthn.Platform) (h : Handlers W) :
    (∀ op ctx outcome, Unforgeable op ctx outcome ↔
      Plain op ∧ Plain (tenantOf ctx) ∧ Plain (requestOf ctx) ∧ Plain outcome) ∧
    ∀ w m call, ∃ outcome,
      (h.serve P w m call).2.stdout = w.stdout ++ [auditLine call.op call.context outcome] ∧
      (Unforgeable call.op call.context outcome ↔
        Plain (tenantOf call.context) ∧ Plain (requestOf call.context)) := by
  refine ⟨fun _ _ _ => unforgeable_iff, fun w m call => ?_⟩
  obtain ⟨outcome, houtcome, hstdout⟩ := records_serve P h w m call
  refine ⟨outcome, hstdout, ?_⟩
  rw [unforgeable_iff, and_iff_right (plain_op call), and_iff_left houtcome]

/-! ## What a run of calls writes -/

/-- The output read line by line. -/
def readLog (stdout : List Bytes) : List (Option (List (Bytes × Bytes))) :=
  (splitOn newline stdout.flatten).dropLast.map readObject

/-- The Guard after one call after the other. -/
def Handlers.serveAll (P : Webauthn.Platform) (h : Handlers W) (w : Watch W)
    (calls : List (Moment × Call)) : Watch W :=
  calls.foldl (fun w c => (h.serve P w c.1 c.2).2) w

lemma readLog_cons {op outcome : Bytes} {ctx : Option RequestContext} {lines : List Bytes}
    (hplain : AllPlain (auditFields op ctx outcome)) :
    readLog (auditLine op ctx outcome :: lines) =
      some (auditFields op ctx outcome) :: readLog lines := by
  obtain ⟨text, hline, hnewline, -⟩ := (unforgeable_iff.mpr (allPlain_auditFields.mp hplain)).line
  have htext : write (auditFields op ctx outcome) = text := by
    rw [auditLine_eq] at hline
    exact (List.append_inj' hline rfl).1
  have hread : readObject text = some (auditFields op ctx outcome) := by
    rw [← htext]
    exact readObject_write (by simp [auditFields]) hplain
  rw [readLog, List.flatten_cons, hline, List.append_assoc, List.singleton_append,
    splitOn_append newline hnewline, List.dropLast_cons_of_ne_nil (splitOn_ne_nil _ _),
    List.map_cons, hread, readLog]

/-- The output of calls with plain contexts reads back as one record for each call, in order. -/
theorem readLog_serveAll (calls : List (Moment × Call)) (w : Watch W)
    (hplain : ∀ c ∈ calls, Plain (tenantOf c.2.context) ∧ Plain (requestOf c.2.context)) :
    ∃ lines, (h.serveAll P w calls).stdout = w.stdout ++ lines ∧
      List.Forall₂ (fun c r => ∃ outcome, r = some (auditFields c.2.op c.2.context outcome))
        calls (readLog lines) := by
  induction calls generalizing w with
  | nil => exact ⟨[], (List.append_nil _).symm, .nil⟩
  | cons c calls ih =>
    obtain ⟨⟨htenant, hrequest⟩, hrest⟩ := List.forall_mem_cons.mp hplain
    obtain ⟨outcome, houtcome, hstdout⟩ := records_serve P h w c.1 c.2
    obtain ⟨lines, hlines, hread⟩ := ih (h.serve P w c.1 c.2).2 hrest
    refine ⟨auditLine c.2.op c.2.context outcome :: lines, ?_, ?_⟩
    · rw [Handlers.serveAll, List.foldl_cons]
      rw [Handlers.serveAll, hstdout, List.append_assoc, List.singleton_append] at hlines
      exact hlines
    · rw [readLog_cons (allPlain_auditFields.mpr ⟨plain_op c.2, htenant, hrequest, houtcome⟩)]
      exact .cons ⟨outcome, rfl⟩ hread

end serve
end calls

namespace Forged

def context (tenant request : String) : Option RequestContext :=
  some ⟨ascii tenant, [], 0, ascii request⟩

def op : Bytes := ascii "decrypt_field"

def outcome : Bytes := ascii "rejected"

/-- A tenant that closes its record and opens another. -/
def split : Option RequestContext :=
  context "a\",\"request\":\"b\",\"outcome\":\"rejected\"\x7d\n\x7b\"audit\":\"key_op\",\"op\":\"decrypt_field\",\"tenant\":\"c"
    "d"

/-- Two requests are written as one line, and one request as two records. -/
theorem records_forged :
    ¬ (∀ op ctx outcome, Unforgeable op ctx outcome) ∧
    auditLine op split outcome =
      auditLine op (context "a" "b") outcome ++ auditLine op (context "c" "d") outcome := by
  constructor
  · intro h
    have hsame := (h op (context "a\",\"request\":\"b" "c") outcome).alone op
      (context "a" "b\",\"request\":\"c") outcome (by decide +kernel)
    exact absurd hsame (by decide +kernel)
  · decide +kernel

end Forged
end AiAuth.CryptoService
