import AiAuth.Startup

/-!
# The gateway's client of the Guard

Every method sets the purpose of its own call, so the gate has nothing to refuse. A call can be
lost on its way, and so can its answer.
-/
namespace AiAuth.GuardClient
open Library Aead CryptoService

/-- What the gateway asks its client to do. A probe asks only for an answer. -/
inductive Operation
  | verifyPasskey (call : Login.Call) (rpID origin challenge : Bytes)
      (credential : Option StoredCredential) (assertion : Option Assertion)
  | encryptField (call : Login.Call) (plaintext wrappedDek : Bytes)
  | decryptField (call : Login.Call) (ciphertext wrappedDek : Bytes)
  | blindIndex (call : Login.Call) (input : Bytes)
  | probe
  deriving DecidableEq

def purposeRowEncrypt : ℤ := 2
def purposeRowDecrypt : ℤ := 3
def purposeBlindIndex : ℤ := 4

/-- What the caller of the client gets: the client refuses by itself, nothing comes back in time,
or the Guard's answer. -/
inductive Outcome
  | invalid
  | unreachable
  | failed (e : Status)
  | verdict (resp : VerifyAssertionResponse)
  | encrypted (ciphertext dek : Bytes)
  | decrypted (plaintext : Bytes)
  | indexed (index : Bytes)
  | healthy
  deriving DecidableEq

/-- What becomes of a call: its answer comes back in time, or is lost, or the call itself is. -/
inductive Delivery
  | answered
  | unanswered
  | lost
  deriving DecidableEq

namespace Operation

/-- What is sent, if anything is; `uuid` stands in for an empty request id. -/
def send (uuid : Bytes) : Operation → Option Call
  | verifyPasskey call rpID origin challenge credential assertion =>
    (call.context Login.purposePasskeyLogin false uuid).map fun rc =>
      .verifyAssertion ⟨some rc, rpID, origin, challenge, credential, assertion⟩
  | encryptField call plaintext wrappedDek =>
    (call.context purposeRowEncrypt true uuid).map fun rc =>
      .encryptField ⟨some rc, plaintext, wrappedDek⟩
  | decryptField call ciphertext wrappedDek =>
    (call.context purposeRowDecrypt true uuid).map fun rc =>
      .decryptField ⟨some rc, ciphertext, wrappedDek⟩
  | blindIndex call input =>
    (call.context purposeBlindIndex false uuid).map fun rc => .blindIndex ⟨some rc, input⟩
  | probe => some (.verifyAssertion ⟨none, [], [], [], none, none⟩)

/-- An answer of the Guard, to the caller of a method. -/
def result : Answer → Outcome
  | .verifyAssertion (.ok resp) => .verdict resp
  | .encryptField (.ok resp) => .encrypted resp.ciphertext resp.wrappedDek
  | .decryptField (.ok resp) => .decrypted resp.plaintext
  | .blindIndex (.ok resp) => .indexed resp.index
  | .verifyAssertion (.error e) | .encryptField (.error e) | .decryptField (.error e)
  | .blindIndex (.error e) => .failed e

/-- To a probe, a refusal proves that the Guard is there. -/
def read (op : Operation) (a : Answer) : Outcome :=
  match op with
  | probe =>
    match a.status with
    | none => .healthy
    | some e =>
      if e.code = .invalidArgument ∨ e.code = .permissionDenied ∨ e.code = .unimplemented then
        .healthy
      else .failed e
  | _ => result a

/-- What an operation can be refused for by a Guard that it reaches. -/
def flaw : Operation → Option Status
  | verifyPasskey _ _ _ _ credential assertion =>
    if credential.isSome && assertion.isSome then none
    else some ⟨.invalidArgument, ascii "credential and assertion are required"⟩
  | encryptField _ _ wrappedDek => if wrappedDek = [] then none else some denied
  | decryptField _ _ _ => some denied
  | _ => none

/-- Whether the client has what it needs of the caller: a tenant, and a subject for rows. -/
def complete : Operation → Bool
  | verifyPasskey call _ _ _ _ _ | blindIndex call _ => call.tenantID ≠ []
  | encryptField call _ _ | decryptField call _ _ => call.tenantID ≠ [] && call.subjectID ≠ []
  | probe => true

/-- No plaintext is longer than the cipher takes. -/
def short : Operation → Bool
  | encryptField _ plaintext _ => plaintext.length ≤ maxMessage
  | _ => true

end Operation

/-- One use of the client: a new request id, what becomes of the call, and what the Guard finds
and draws. -/
structure Transmission where
  op : Operation
  uuid : Bytes
  uuid_ne : uuid ≠ []
  delivery : Delivery
  moment : Moment
  draws : Draws

def Transmission.incoming (t : Transmission) : Option Incoming :=
  (t.op.send t.uuid).map fun call => ⟨t.moment, t.draws, call⟩

/-- A call is put, served and answered, as far as it comes. -/
def exchange (P : Webauthn.Platform) (C : Cipher) (hmac : Bytes → Bytes → Index) (g : Guard)
    (s : State) (t : Transmission) : Outcome × State :=
  match t.incoming with
  | none => (.invalid, s)
  | some i =>
    match t.delivery with
    | .lost => (.unreachable, s)
    | .unanswered => (.unreachable, (g.serve P C hmac s i).2)
    | .answered => (t.op.read (g.serve P C hmac s i).1, (g.serve P C hmac s i).2)

section exchange
variable {P : Webauthn.Platform} {C : Cipher} {hmac : Bytes → Bytes → Index} {g : Guard}
  {s s' : State} {t : Transmission} {i : Incoming}

lemma exchange_invalid (h : t.incoming = none) : exchange P C hmac g s t = (.invalid, s) := by
  rw [exchange, h]

lemma exchange_lost (h : t.incoming = some i) (hd : t.delivery = .lost) :
    exchange P C hmac g s t = (.unreachable, s) := by
  rw [exchange, h, hd]

lemma exchange_unanswered (h : t.incoming = some i) (hd : t.delivery = .unanswered) :
    exchange P C hmac g s t = (.unreachable, (g.serve P C hmac s i).2) := by
  rw [exchange, h, hd]

lemma exchange_answered (h : t.incoming = some i) (hd : t.delivery = .answered) :
    exchange P C hmac g s t =
      (t.op.read (g.serve P C hmac s i).1, (g.serve P C hmac s i).2) := by
  rw [exchange, h, hd]

/-- The Guard is left as it was, or has served the call. -/
lemma exchange_state : (exchange P C hmac g s t).2 = s ∨
    ∃ i, t.incoming = some i ∧ (exchange P C hmac g s t).2 = (g.serve P C hmac s i).2 := by
  cases h : t.incoming with
  | none => exact .inl (congrArg Prod.snd (exchange_invalid h))
  | some i =>
    cases hd : t.delivery with
    | lost => exact .inl (congrArg Prod.snd (exchange_lost h hd))
    | unanswered => exact .inr ⟨i, rfl, congrArg Prod.snd (exchange_unanswered h hd)⟩
    | answered => exact .inr ⟨i, rfl, congrArg Prod.snd (exchange_answered h hd)⟩

end exchange

/-! ## The gate has nothing to refuse -/

section gate
variable {call : Login.Call} {purpose : ℤ} {want : Purpose} {subjectRequired : Bool} {uuid : Bytes}
  {rc : RequestContext} {t : Transmission} {i : Incoming}

/-- A context that the client puts together passes for its own purpose. -/
lemma validate_context (hcontext : call.context purpose subjectRequired uuid = some rc)
    (huuid : uuid ≠ []) (hpurpose : Purpose.ofInt purpose = some want)
    (hwant : want ≠ .unspecified) :
    validate (some rc) want subjectRequired = .ok () ∧ rc.tenantID = call.tenantID := by
  unfold Login.Call.context at hcontext
  split_ifs at hcontext with htenant hsubject hrequest
  all_goals
    obtain rfl := Option.some.inj hcontext
    have hget : (Purpose.ofInt purpose).getD .unspecified = want := by rw [hpurpose]; rfl
    refine ⟨?_, rfl⟩
    unfold validate
    simp only [RequestContext.getPurpose, hget]
  · rw [if_neg huuid, if_neg htenant, if_neg hsubject, if_neg hwant, if_neg (not_not.mpr rfl)]
  · rw [if_neg hrequest, if_neg htenant, if_neg hsubject, if_neg hwant, if_neg (not_not.mpr rfl)]

/-- Whatever is sent passes the gate, but for the probes. -/
lemma gate_incoming (h : t.incoming = some i) (hop : t.op ≠ .probe) : i.gate = .ok () := by
  unfold Transmission.incoming at h
  obtain ⟨call, hsend, rfl⟩ := Option.map_eq_some_iff.mp h
  cases hcase : t.op with
  | verifyPasskey c rpID origin challenge credential assertion =>
    rw [hcase] at hsend
    obtain ⟨rc, hcontext, rfl⟩ := Option.map_eq_some_iff.mp hsend
    exact (validate_context hcontext t.uuid_ne rfl Purpose.noConfusion).1
  | encryptField c plaintext wrappedDek =>
    rw [hcase] at hsend
    obtain ⟨rc, hcontext, rfl⟩ := Option.map_eq_some_iff.mp hsend
    exact (validate_context hcontext t.uuid_ne rfl Purpose.noConfusion).1
  | decryptField c ciphertext wrappedDek =>
    rw [hcase] at hsend
    obtain ⟨rc, hcontext, rfl⟩ := Option.map_eq_some_iff.mp hsend
    exact (validate_context hcontext t.uuid_ne rfl Purpose.noConfusion).1
  | blindIndex c input =>
    rw [hcase] at hsend
    obtain ⟨rc, hcontext, rfl⟩ := Option.map_eq_some_iff.mp hsend
    exact (validate_context hcontext t.uuid_ne rfl Purpose.noConfusion).1
  | probe => exact absurd hcase hop

/-- A probe is refused, and that is its answer. -/
lemma incoming_probe (hop : t.op = .probe) : ∃ i, t.incoming = some i ∧
    i.gate = .error ⟨.invalidArgument, ascii "request_context is required"⟩ ∧
    i.call.refused ⟨.invalidArgument, ascii "request_context is required"⟩ =
      .verifyAssertion (.error ⟨.invalidArgument, ascii "request_context is required"⟩) := by
  refine ⟨⟨t.moment, t.draws, .verifyAssertion ⟨none, [], [], [], none, none⟩⟩, ?_, rfl, rfl⟩
  unfold Transmission.incoming
  rw [hop]
  rfl

/-- The client sends what it has all of. -/
lemma incoming_isSome : t.incoming.isSome = t.op.complete := by
  have hcontext : ∀ (call : Login.Call) (purpose : ℤ) (subjectRequired : Bool),
      (call.context purpose subjectRequired t.uuid).isSome =
        (call.tenantID ≠ [] && (!subjectRequired || call.subjectID ≠ [])) := by
    intro call purpose subjectRequired
    unfold Login.Call.context
    by_cases htenant : call.tenantID = []
    · simp [htenant]
    · cases subjectRequired <;> by_cases hsubject : call.subjectID = [] <;>
        simp [htenant, hsubject]
  unfold Transmission.incoming Operation.send Operation.complete
  cases t.op <;> simp [hcontext]

lemma flaw_incoming (h : t.incoming = some i) (hop : t.op ≠ .probe) :
    i.call.flaw = t.op.flaw ∧ (t.op.short = true → i.call.short = true) := by
  unfold Transmission.incoming at h
  obtain ⟨call, hsend, rfl⟩ := Option.map_eq_some_iff.mp h
  cases hcase : t.op with
  | probe => exact absurd hcase hop
  | _ =>
    rw [hcase] at hsend
    obtain ⟨rc, hcontext, rfl⟩ := Option.map_eq_some_iff.mp hsend
    exact ⟨rfl, id⟩

end gate

/-! ## Probes -/

section probes
variable {P : Webauthn.Platform} {C : Cipher} {hmac : Bytes → Bytes → Index} {g : Guard}
  {s s' : State} {t : Transmission}

/-- A probe is healthy where its answer comes back, whatever state the Guard is in. -/
lemma exchange_probe (hop : t.op = .probe) :
    (exchange P C hmac g s t).1 = (if t.delivery = .answered then .healthy else .unreachable) ∧
      (exchange P C hmac g s t).2.tables = s.tables ∧
      (exchange P C hmac g s t).2.world = s.world := by
  obtain ⟨i, hi, hgate, hrefused⟩ := incoming_probe hop
  have hserve := @serve_rejected P C hmac g s i _ hgate
  cases hd : t.delivery with
  | lost => rw [exchange_lost hi hd]; exact ⟨rfl, rfl, rfl⟩
  | unanswered => rw [exchange_unanswered hi hd, hserve]; exact ⟨rfl, rfl, rfl⟩
  | answered =>
    rw [exchange_answered hi hd, hserve]
    refine ⟨?_, rfl, rfl⟩
    dsimp only
    rw [hrefused, hop]
    rfl

/-- The log is not read. -/
lemma exchange_congr (htables : s.tables = s'.tables) (hworld : s.world = s'.world) :
    (exchange P C hmac g s t).1 = (exchange P C hmac g s' t).1 ∧
      (exchange P C hmac g s t).2.tables = (exchange P C hmac g s' t).2.tables ∧
      (exchange P C hmac g s t).2.world = (exchange P C hmac g s' t).2.world := by
  cases hi : t.incoming with
  | none =>
    rw [exchange_invalid hi, exchange_invalid hi]
    exact ⟨rfl, htables, hworld⟩
  | some i =>
    obtain ⟨answer, tables, world, outcome, hs, hs'⟩ :=
      @serve_congr P C hmac g s s' i htables hworld
    cases hd : t.delivery with
    | lost =>
      rw [exchange_lost hi hd, exchange_lost hi hd]
      exact ⟨rfl, htables, hworld⟩
    | unanswered =>
      rw [exchange_unanswered hi hd, exchange_unanswered hi hd, hs, hs']
      exact ⟨rfl, rfl, rfl⟩
    | answered =>
      rw [exchange_answered hi hd, exchange_answered hi hd, hs, hs']
      exact ⟨rfl, rfl, rfl⟩

end probes

/-- A probe says whether the Guard answers, and nothing else: it is healthy exactly where its
answer comes back, in every state of the Guard, and taken out of a run it changes no other outcome,
no budget and no key material. -/
theorem probes_invisible (P : Webauthn.Platform) (C : Cipher) (hmac : Bytes → Bytes → Index)
    (g : Guard) (s : State) (ts : List Transmission) :
    (∀ x ∈ Machine.transcript (exchange P C hmac g) s ts, x.1.op = .probe →
        x.2 = if x.1.delivery = .answered then .healthy else .unreachable) ∧
      (Machine.transcript (exchange P C hmac g) s ts).filter (fun x => x.1.op ≠ .probe) =
        Machine.transcript (exchange P C hmac g) s (ts.filter fun t => t.op ≠ .probe) ∧
      (Machine.after (exchange P C hmac g) s (ts.filter fun t => t.op ≠ .probe)).tables =
        (Machine.after (exchange P C hmac g) s ts).tables ∧
      (Machine.after (exchange P C hmac g) s (ts.filter fun t => t.op ≠ .probe)).world =
        (Machine.after (exchange P C hmac g) s ts).world := by
  have hany : ∀ t ∈ ts, True := fun _ _ => trivial
  have hseen := (Machine.transcript_invariant (I := fun _ => True) (s := s)
    (f := exchange P C hmac g) trivial hany fun _ _ _ _ => trivial).1
  refine ⟨fun x hx hop => ?_, ?_⟩
  · obtain ⟨s', -, -, hanswer⟩ := hseen x hx
    rw [hanswer]
    exact (exchange_probe hop).1
  · refine Machine.transcript_filter (p := fun t : Transmission => t.op ≠ .probe)
      (R := fun _ (s s' : State) => s'.tables = s.tables ∧ s'.world = s.world) ⟨rfl, rfl⟩ ?_ ?_
    · intro t ts s s' hR hp
      have hop : t.op = .probe := by simpa using hp
      obtain ⟨-, htables, hworld⟩ := @exchange_probe P C hmac g s t hop
      exact ⟨hR.1.trans htables.symm, hR.2.trans hworld.symm⟩
    · intro t ts s s' hR _
      obtain ⟨hout, htables, hworld⟩ := @exchange_congr P C hmac g s s' t hR.1.symm hR.2.symm
      exact ⟨hout, htables.symm, hworld.symm⟩

/-! ## Errors -/

section errors
variable {P : Webauthn.Platform} {C : Cipher} {hmac : Bytes → Bytes → Index} {g : Guard}
  {s : State} {t : Transmission} {e : Status}

lemma status_of_read {a : Answer} (hop : t.op ≠ .probe) (h : t.op.read a = .failed e) :
    a.status = some e := by
  unfold Operation.read at h
  split at h
  next hprobe => exact absurd hprobe hop
  · unfold Operation.result at h
    split at h <;> cases h <;> rfl

/-- An error is the limiter's, or says what is wrong with the call. -/
lemma exchange_failed {key indexMaterial : Bytes} (hC : Seals C)
    (hkek : g.provider.keys.get g.kek = some key) (hlen : key.length = keyLen)
    (hindex : g.provider.keys.get g.indexKey = some indexMaterial) (h : KeysOnly s.world)
    (hshort : t.op.short = true) (he : (exchange P C hmac g s t).1 = .failed e) :
    e = budgetExceeded ∨ t.op.flaw = some e := by
  by_cases hop : t.op = .probe
  · rw [(exchange_probe hop).1] at he
    split_ifs at he
  cases hi : t.incoming with
  | none =>
    rw [exchange_invalid hi] at he
    cases he
  | some i =>
    cases hd : t.delivery with
    | lost =>
      rw [exchange_lost hi hd] at he
      cases he
    | unanswered =>
      rw [exchange_unanswered hi hd] at he
      cases he
    | answered =>
      rw [exchange_answered hi hd] at he
      obtain ⟨hflaw, hshort'⟩ := flaw_incoming hi hop
      have hstatus := status_of_read hop he
      rcases serve_errors hC hkek hlen hindex h (hshort' hshort) hstatus with
        hgate | hbudget | hcall
      · rw [gate_incoming hi hop] at hgate
        cases hgate
      · exact .inl hbudget
      · exact .inr (hflaw ▸ hcall)

lemma keysOnly_exchange (h : KeysOnly s.world) : KeysOnly (exchange P C hmac g s t).2.world := by
  rcases @exchange_state P C hmac g s t with hs | ⟨i, -, hs⟩
  · rw [hs]
    exact h
  · rw [hs]
    exact keysOnly_serve h

/-- An operation is refused by the client itself, or its answer does not come back. -/
lemma exchange_unsent : ((exchange P C hmac g s t).1 = .invalid ↔ t.op.complete = false) ∧
    ((exchange P C hmac g s t).1 = .unreachable ↔
      t.op.complete = true ∧ t.delivery ≠ .answered) := by
  rw [← incoming_isSome]
  cases hi : t.incoming with
  | none => simp [exchange_invalid hi]
  | some i =>
    cases hd : t.delivery with
    | lost => simp [exchange_lost hi hd]
    | unanswered => simp [exchange_unanswered hi hd]
    | answered =>
      have hread : ∀ a, t.op.read a ≠ .invalid ∧ t.op.read a ≠ .unreachable := by
        intro a
        have hresult : Operation.result a ≠ .invalid ∧ Operation.result a ≠ .unreachable := by
          unfold Operation.result
          split <;> simp
        unfold Operation.read
        split
        · split
          · simp
          · split_ifs <;> simp
        · exact hresult
      simp [exchange_answered hi hd, hread]

end errors

/-- All errors that the gateway ever gets from the client of a Guard that its process started. The
gate refuses nothing but probes. What an operation fails with is the client's own refusal exactly
where it lacks a tenant or a subject, and that of the channel exactly where no answer comes back;
else it is the budget, a missing credential or assertion, or for a row that brings a wrapped key
that it is not available. -/
theorem client_errors {env : Environment} {l : Launch} {P : Webauthn.Platform} {C : Cipher}
    {hmac : Bytes → Bytes → Index} {ts : List Transmission} (hl : launch env = some l)
    (hC : Seals C) (hshort : ∀ t ∈ ts, t.op.short = true) :
    (∀ t ∈ ts, ∀ i, t.incoming = some i → t.op ≠ .probe → i.gate = .ok ()) ∧
      ∀ x ∈ Machine.transcript (exchange P C hmac l.guard) .start ts,
        (x.2 = .invalid ↔ x.1.op.complete = false) ∧
        (x.2 = .unreachable ↔ x.1.op.complete = true ∧ x.1.delivery ≠ .answered) ∧
        ∀ e, x.2 = .failed e → e = budgetExceeded ∨ x.1.op.flaw = some e := by
  refine ⟨fun t _ i hi hop => gate_incoming hi hop, fun x hx => ?_⟩
  obtain ⟨profile, g⟩ := l
  obtain ⟨-, rfl⟩ := launch_some hl
  obtain ⟨s, hs, hx₁, hx₂⟩ := (Machine.transcript_invariant (I := fun s : State => KeysOnly s.world)
    keysOnly_start hshort fun s t hs _ => keysOnly_exchange hs).1 x hx
  rw [hx₂]
  refine ⟨exchange_unsent.1, exchange_unsent.2, fun e he => ?_⟩
  exact exchange_failed hC developmentKeys_kek List.length_replicate developmentKeys_index hs hx₁ he

namespace Worked

/-- A row whose key was not wrapped with the key of this Guard. -/
def foreign : Transmission :=
  ⟨.decryptField ⟨Row.tenant, ascii "s1", []⟩ Row.nameField.box Row.wrapped.box, ascii "req-1",
    by decide, .answered, ⟨0, []⟩, ⟨Row.dek, Row.wrapNonce, Row.nameNonce⟩⟩

end Worked

theorem client_errors_worked : (exchange Row.platform Row.developmentCipher Row.hmac
      (.new developmentKeys indexKey kek) .start Worked.foreign).1 = .failed denied ∧
    (denied = budgetExceeded ∨ Worked.foreign.op.flaw = some denied) := by
  have hdenied : (exchange Row.platform Row.developmentCipher Row.hmac
      (.new developmentKeys indexKey kek) .start Worked.foreign).1 = .failed denied := by
    decide +kernel
  refine ⟨hdenied, ?_⟩
  have herrors := @client_errors Row.environment ⟨.strict, .new developmentKeys indexKey kek⟩
    Row.platform Row.developmentCipher Row.hmac [Worked.foreign] rfl Row.developmentCipher_seals
    (by decide)
  exact (herrors.2 _ List.mem_cons_self).2.2 _ hdenied

/-! ## Rows that are read back -/

/-- The random values of a call are new. -/
def step (P : Webauthn.Platform) (C : Cipher) (hmac : Bytes → Bytes → Index) (g : Guard) (s : State)
    (e : Transmission × Outcome) : Option State :=
  let res := exchange P C hmac g s e.1
  if e.1.draws.fresh s.world ∧ res.1 = e.2 then some res.2 else none

/-- What the client was handed is among the fields that the Guard has sealed. -/
def Stored (key : Bytes) (tr : List (Transmission × Outcome)) (w : World) : Prop :=
  KeysOnly w ∧ ∃ fields, Provenance key fields w ∧
    ∀ e ∈ tr, ∀ call plaintext old ciphertext dek, e.1.op = .encryptField call plaintext old →
      e.2 = .encrypted ciphertext dek → ⟨call.tenantID, plaintext, dek, ciphertext⟩ ∈ fields

section rows
variable {P : Webauthn.Platform} {C : Cipher} {hmac : Bytes → Bytes → Index} {g : Guard}
  {key : Bytes} {fields : List Field} {w w' : World} {s s' : State} {r : Draws} {i : Incoming}
  {t : Transmission} {e : Transmission × Outcome} {tr : List (Transmission × Outcome)}

lemma provenance_sealRow {req : EncryptFieldRequest} {res : Except Status EncryptFieldResponse}
    (hkek : g.provider.keys.get g.kek = some key) (h : Provenance key fields w)
    (hfresh : r.fresh w = true) (hseal : g.sealRow C w r req = (res, w')) :
    ∃ fields', Provenance key fields' w' ∧ fields ⊆ fields' ∧ ∀ resp, res = .ok resp →
      ⟨tenantOf req.context, req.plaintext, resp.wrappedDek, resp.ciphertext⟩ ∈ fields' := by
  unfold Guard.sealRow Guard.sealUnder at hseal
  cases hrow : g.rowKey C w r (tenantOf req.context) req.wrappedDek with
  | mk row w₁ =>
    obtain ⟨hp, hnew⟩ := provenance_rowKey hkek h hfresh hrow
    rw [hrow] at hseal
    cases row with
    | error e =>
      obtain ⟨rfl, rfl⟩ := Prod.mk.inj hseal
      exact ⟨fields, hp, List.Subset.refl _, fun resp hresp => by cases hresp⟩
    | ok wrapped =>
      dsimp only at hseal
      cases hfield : g.provider.encryptField C w₁ r.fieldNonce g.kek (tenantOf req.context) wrapped
          req.plaintext with
      | mk sealed w₂ =>
        obtain ⟨herror, hok⟩ := provenance_encryptField hkek hp hnew hfield
        rw [hfield] at hseal
        cases sealed with
        | error e =>
          obtain ⟨rfl, rfl⟩ := Prod.mk.inj hseal
          exact ⟨fields, herror e rfl, List.Subset.refl _, fun resp hresp => by cases hresp⟩
        | ok c =>
          obtain ⟨rfl, rfl⟩ := Prod.mk.inj hseal
          refine ⟨_, hok c rfl, List.subset_append_left _ _, fun resp hresp => ?_⟩
          obtain rfl := Except.ok.inj hresp
          exact List.mem_append_right _ (List.mem_singleton.mpr rfl)

/-- Whatever is called, the Guard knows what it has sealed. -/
lemma provenance_serve (hkek : g.provider.keys.get g.kek = some key)
    (h : Provenance key fields s.world) (hfresh : i.draws.fresh s.world = true) :
    ∃ fields', Provenance key fields' (g.serve P C hmac s i).2.world ∧ fields ⊆ fields' ∧
      ∀ req resp, i.call = .encryptField req →
        (g.serve P C hmac s i).1 = .encryptField (.ok resp) →
        ⟨tenantOf req.context, req.plaintext, resp.wrappedDek, resp.ciphertext⟩ ∈ fields' := by
  have hrefused : ∀ {e : Status} {resp : EncryptFieldResponse},
      i.call.refused e ≠ .encryptField (.ok resp) := by
    intro e resp
    cases i.call <;> simp [Call.refused]
  cases hgate : i.gate with
  | error e =>
    rw [serve_rejected hgate]
    exact ⟨fields, h, List.Subset.refl _, fun req resp _ hresp => absurd hresp hrefused⟩
  | ok u =>
    cases hallow :
        (g.limiter.allow s.tables i.moment.now i.moment.order i.tenantID i.call.op).1 with
    | false =>
      rw [serve_limited hgate hallow]
      exact ⟨fields, h, List.Subset.refl _, fun req resp _ hresp => absurd hresp hrefused⟩
    | true =>
      rw [serve_done hgate hallow]
      show ∃ fields', Provenance key fields' (g.work P C hmac s.world i.draws i.call).2 ∧ _ ∧ _
      cases hcall : i.call with
      | encryptField req =>
        obtain ⟨fields', hp, hsub, hmem⟩ := provenance_sealRow hkek h hfresh
          (Prod.mk.eta (p := g.sealRow C s.world i.draws req)).symm
        refine ⟨fields', hp, hsub, fun req' resp hreq hresp => ?_⟩
        obtain rfl := Call.encryptField.inj hreq
        exact hmem resp (Answer.encryptField.inj hresp)
      | verifyAssertion req =>
        exact ⟨fields, h, List.Subset.refl _, fun req' resp hreq => by cases hreq⟩
      | decryptField req =>
        exact ⟨fields, h, List.Subset.refl _, fun req' resp hreq => by cases hreq⟩
      | blindIndex req =>
        exact ⟨fields, h, List.Subset.refl _, fun req' resp hreq => by cases hreq⟩

lemma encrypted_of_result {a : Answer} {ciphertext dek : Bytes}
    (h : Operation.result a = .encrypted ciphertext dek) :
    a = .encryptField (.ok ⟨ciphertext, dek⟩) := by
  unfold Operation.result at h
  split at h <;> cases h
  rfl

/-- A row that is sent names the tenant of the call. -/
lemma incoming_encryptField {call : Login.Call} {plaintext old : Bytes}
    (hop : t.op = .encryptField call plaintext old) (hi : t.incoming = some i) :
    ∃ rc, i.call = .encryptField ⟨some rc, plaintext, old⟩ ∧ rc.tenantID = call.tenantID := by
  unfold Transmission.incoming at hi
  rw [hop] at hi
  obtain ⟨c, hsend, rfl⟩ := Option.map_eq_some_iff.mp hi
  obtain ⟨rc, hcontext, rfl⟩ := Option.map_eq_some_iff.mp hsend
  exact ⟨rc, rfl, (validate_context hcontext t.uuid_ne rfl Purpose.noConfusion).2⟩

lemma provenance_exchange (hkek : g.provider.keys.get g.kek = some key)
    (h : Provenance key fields s.world) (hfresh : t.draws.fresh s.world = true) :
    ∃ fields', Provenance key fields' (exchange P C hmac g s t).2.world ∧ fields ⊆ fields' ∧
      ∀ call plaintext old ciphertext dek, t.op = .encryptField call plaintext old →
        (exchange P C hmac g s t).1 = .encrypted ciphertext dek →
        ⟨call.tenantID, plaintext, dek, ciphertext⟩ ∈ fields' := by
  cases hi : t.incoming with
  | none =>
    rw [exchange_invalid hi]
    exact ⟨fields, h, List.Subset.refl _, fun _ _ _ _ _ _ hout => by cases hout⟩
  | some i =>
    have hdraws : i.draws = t.draws := by
      unfold Transmission.incoming at hi
      obtain ⟨c, -, rfl⟩ := Option.map_eq_some_iff.mp hi
      rfl
    obtain ⟨fields', hp, hsub, hmem⟩ := @provenance_serve P C hmac g key fields s i hkek h
      (hdraws ▸ hfresh)
    cases hd : t.delivery with
    | lost =>
      rw [exchange_lost hi hd]
      exact ⟨fields, h, List.Subset.refl _, fun _ _ _ _ _ _ hout => by cases hout⟩
    | unanswered =>
      rw [exchange_unanswered hi hd]
      exact ⟨fields', hp, hsub, fun _ _ _ _ _ _ hout => by cases hout⟩
    | answered =>
      rw [exchange_answered hi hd]
      refine ⟨fields', hp, hsub, fun call plaintext old ciphertext dek hop hout => ?_⟩
      obtain ⟨rc, hcall, htenant⟩ := incoming_encryptField hop hi
      rw [hop] at hout
      rw [← htenant]
      exact hmem _ ⟨ciphertext, dek⟩ hcall (encrypted_of_result hout)

/-- Whatever is done with the client, what it was handed stays stored. -/
lemma stored_step (hkek : g.provider.keys.get g.kek = some key) (h : Stored key tr s.world)
    (hs : step P C hmac g s e = some s') : Stored key (tr ++ [e]) s'.world := by
  obtain ⟨hkeys, fields, hp, hmem⟩ := h
  unfold step at hs
  dsimp only at hs
  split_ifs at hs with hg
  obtain ⟨hfresh, hout⟩ := hg
  obtain rfl := Option.some.inj hs
  obtain ⟨fields', hp', hsub, hnew⟩ :=
    @provenance_exchange P C hmac g key fields s e.1 hkek hp hfresh
  refine ⟨keysOnly_exchange hkeys, fields', hp', ?_⟩
  intro e' he' call plaintext old ciphertext dek hop hres
  rcases List.mem_append.mp he' with he' | he'
  · exact hsub (hmem e' he' call plaintext old ciphertext dek hop hres)
  · obtain rfl := List.mem_singleton.mp he'
    exact hnew call plaintext old ciphertext dek hop (hout.trans hres)

lemma stored_run (hkek : g.provider.keys.get g.kek = some key)
    (hr : Run (StepOf (step P C hmac g)) .start tr s) : Stored key tr s.world := by
  refine hr.invariant (fun tr s => Stored key tr s.world) ?_ fun tr s e s' _ h hs =>
    stored_step hkek h hs
  exact ⟨keysOnly_start, [], provenance_empty, fun e he => absurd he List.not_mem_nil⟩

/-- A wrapped key is of one tenant. -/
lemma Wraps.tenant {tenant tenant' wrapped dek dek' : Bytes} (hok : w.Ok)
    (h : Wraps w tenant wrapped dek) (h' : Wraps w tenant' wrapped dek') : tenant = tenant' := by
  obtain ⟨e, he, haad, -, hbox⟩ := h
  obtain ⟨e', he', haad', -, hbox'⟩ := h'
  have hlen : e.nonce.length = e'.nonce.length := (hok.nonce e he).trans (hok.nonce e' he').symm
  have hnonce : e.nonce = e'.nonce := (List.append_inj (hbox.trans hbox'.symm) hlen).1
  have hsame : e = e' := List.inj_on_of_nodup_map hok.nonces he he' hnonce
  exact aad_inj (haad.symm.trans (hsame ▸ haad'))

/-- What a field opens to: its plaintext for its tenant, and nothing for another. -/
lemma decryptField_stored {tenant tenant' plaintext wrapped ciphertext : Bytes}
    (hkek : g.provider.keys.get g.kek = some key) (hlen : key.length = keyLen) (hkeys : KeysOnly w)
    (hp : Provenance key fields w) (hmem : ⟨tenant, plaintext, wrapped, ciphertext⟩ ∈ fields) :
    g.provider.decryptField w g.kek tenant' wrapped ciphertext =
      if tenant' = tenant then .ok plaintext else .error .decrypt := by
  split_ifs with htenant
  · rw [htenant]
    exact (decryptField_iff hkek hp).mpr hmem
  · cases hdec : g.provider.decryptField w g.kek tenant' wrapped ciphertext with
    | error e => rw [decryptField_error hkek hlen hkeys hdec]
    | ok other =>
      obtain ⟨dek, hwraps, -⟩ := hp.handed _ hmem
      obtain ⟨dek', hwraps', -⟩ := hp.handed _ ((decryptField_iff hkek hp).mp hdec)
      exact absurd (Wraps.tenant hp.ok hwraps' hwraps) htenant

/-- A row that is asked for with its tenant and a subject is asked of the provider. -/
lemma exchange_decryptField {call : Login.Call} {ciphertext dek : Bytes}
    (hop : t.op = .decryptField call ciphertext dek) (htenant : call.tenantID ≠ [])
    (hsubject : call.subjectID ≠ []) (hd : t.delivery = .answered) :
    (exchange P C hmac g s t).1 =
      if (g.limiter.allow s.tables t.moment.now t.moment.order call.tenantID
          (ascii "decrypt_field")).1 = false then .failed budgetExceeded
      else match g.provider.decryptField s.world g.kek call.tenantID dek ciphertext with
        | .ok plaintext => .decrypted plaintext
        | .error e => .failed e.status := by
  obtain ⟨rc, hcontext⟩ : ∃ rc, call.context purposeRowDecrypt true t.uuid = some rc := by
    unfold Login.Call.context
    rw [if_neg htenant, if_neg (by simpa using hsubject)]
    exact ⟨_, rfl⟩
  have hi : t.incoming = some ⟨t.moment, t.draws, .decryptField ⟨some rc, ciphertext, dek⟩⟩ := by
    unfold Transmission.incoming
    rw [hop]
    show Option.map _ (Option.map _ (call.context purposeRowDecrypt true t.uuid)) = _
    rw [hcontext]
    rfl
  have hnot : t.op ≠ .probe := by
    rw [hop]
    exact Operation.noConfusion
  have hgate := gate_incoming hi hnot
  have hrc : rc.tenantID = call.tenantID :=
    (validate_context hcontext t.uuid_ne rfl Purpose.noConfusion).2
  rw [exchange_answered hi hd, hop, ← hrc]
  dsimp only
  split_ifs with hallow
  · rw [serve_limited hgate hallow]
    rfl
  · rw [serve_done hgate (Bool.eq_true_of_not_eq_false hallow)]
    show Operation.result (.decryptField (((g.provider.decryptField s.world g.kek rc.tenantID dek
      ciphertext).mapError ProviderError.status).map fun p => ⟨p⟩)) = _
    cases g.provider.decryptField s.world g.kek rc.tenantID dek ciphertext <;> rfl

end rows

/-- What the client was handed for a plaintext reads back as this plaintext, in every later state of
a Guard that its process started, whatever was called in between and whatever answers were lost:
the budget can refuse it, and another tenant is told that it is not available. -/
theorem rows_read_back {env : Environment} {l : Launch} {P : Webauthn.Platform} {C : Cipher}
    {hmac : Bytes → Bytes → Index} {tr : List (Transmission × Outcome)} {s : State}
    {t₀ t : Transmission} {call call' : Login.Call} {plaintext old ciphertext dek : Bytes}
    (hl : launch env = some l) (hr : Run (StepOf (step P C hmac l.guard)) .start tr s)
    (hmem : (t₀, .encrypted ciphertext dek) ∈ tr) (hop₀ : t₀.op = .encryptField call plaintext old)
    (hop : t.op = .decryptField call' ciphertext dek) (htenant : call'.tenantID ≠ [])
    (hsubject : call'.subjectID ≠ []) (hd : t.delivery = .answered) :
    (exchange P C hmac l.guard s t).1 =
      if (l.guard.limiter.allow s.tables t.moment.now t.moment.order call'.tenantID
          (ascii "decrypt_field")).1 = false then .failed budgetExceeded
      else if call'.tenantID = call.tenantID then .decrypted plaintext else .failed denied := by
  obtain ⟨profile, g⟩ := l
  obtain ⟨-, rfl⟩ := launch_some hl
  obtain ⟨hkeys, fields, hp, hstored⟩ := stored_run developmentKeys_kek hr
  have hfield := hstored _ hmem call plaintext old ciphertext dek hop₀ rfl
  rw [exchange_decryptField hop htenant hsubject hd,
    decryptField_stored developmentKeys_kek List.length_replicate hkeys hp hfield]
  split_ifs <;> rfl

namespace Worked
open CryptoService.Row

def call : Login.Call := ⟨tenant, ascii "s1", []⟩

def transmission (op : Operation) (delivery : Delivery) (moment : Moment) (draws : Draws) :
    Transmission :=
  ⟨op, ascii "req-1", by decide, delivery, moment, draws⟩

/-- For calls that seal nothing. -/
def idle : Draws := ⟨⟨counting 96 32, rfl⟩, ⟨counting 96 12, rfl⟩, ⟨counting 192 12, rfl⟩⟩

/-- A row is written, a probe is lost, and a call for an index is not answered. -/
def traffic : List (Transmission × Outcome) :=
  [(transmission (.encryptField call name []) .answered ⟨0, []⟩ ⟨dek, wrapNonce, nameNonce⟩,
      .encrypted nameField.box developed.box),
    (transmission .probe .lost ⟨0, []⟩ idle, .unreachable),
    (transmission (.blindIndex ⟨tenant, [], []⟩ name) .unanswered
      ⟨0, [(tenant, ascii "encrypt_field")]⟩ idle, .unreachable)]

/-- The row is asked for again. -/
def again (tenantID : Bytes) : Transmission :=
  transmission (.decryptField ⟨tenantID, ascii "s2", []⟩ nameField.box developed.box) .answered
    ⟨0, [(tenant, ascii "encrypt_field"), (tenant, ascii "blind_index")]⟩ idle

end Worked

theorem rows_read_back_worked : ∃ s,
    (exchange Row.platform Row.developmentCipher Row.hmac (.new developmentKeys indexKey kek) s
      (Worked.again Row.tenant)).1 = .decrypted Row.name ∧
    (exchange Row.platform Row.developmentCipher Row.hmac (.new developmentKeys indexKey kek) s
      (Worked.again (ascii "t2"))).1 = .failed denied := by
  have hl : launch Row.environment = some ⟨.strict, .new developmentKeys indexKey kek⟩ := rfl
  obtain ⟨s, hr, hbudget⟩ := Run.exists_of_foldlM_any
    (step Row.platform Row.developmentCipher Row.hmac (.new developmentKeys indexKey kek))
    (fun s => [Row.tenant, ascii "t2"].all fun tenant =>
      ((Guard.new developmentKeys indexKey kek).limiter.allow s.tables 0
        (Worked.again tenant).moment.order tenant (ascii "decrypt_field")).1)
    State.start Worked.traffic (by decide +kernel)
  have hread := fun (t : Transmission) (call' : Login.Call) =>
    @rows_read_back Row.environment _ Row.platform Row.developmentCipher Row.hmac Worked.traffic s _
      t Worked.call call' Row.name [] Row.nameField.box Row.developed.box hl hr List.mem_cons_self
      rfl
  rw [List.all_cons, List.all_cons, Bool.and_eq_true, Bool.and_eq_true] at hbudget
  obtain ⟨hown, hother, -⟩ := hbudget
  have hallowed : ∀ {b : Bool}, b = true → b ≠ false := fun hb => by simp [hb]
  refine ⟨s, (hread _ _ rfl (by decide) (by decide) rfl).trans ?_,
    (hread _ _ rfl (by decide) (by decide) rfl).trans ?_⟩
  · exact (if_neg (hallowed hown)).trans (if_pos rfl)
  · exact (if_neg (hallowed hother)).trans (if_neg (by decide))

end AiAuth.GuardClient
