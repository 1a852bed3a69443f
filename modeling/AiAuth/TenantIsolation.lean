import AiAuth.GuardRuns
import AiAuth.LimitLoad

/-!
# Tenants of the Guard

What a tenant is answered does not depend on what the others ask, as long as the budget refuses
nobody: a tenant's keys and fields are sealed and opened under associated data of its own.
-/
namespace AiAuth.CryptoService
open Library Aead Limits

/-- The associated data of a tenant. -/
def Owns (t a : Bytes) : Prop := a = aad domainDekWrap t ∨ a = aad domainField t

instance (t a : Bytes) : Decidable (Owns t a) := inferInstanceAs (Decidable (_ ∨ _))

/-- What was sealed for a tenant. -/
def World.view (w : World) (t : Bytes) : Log := w.log.filter fun e => Owns t e.aad

/-- A computation that reads only what was sealed for a tenant, and seals only for it. -/
def Local {α : Type} (t : Bytes) (f : World → α × World) : Prop :=
  ∀ w w', w.view t = w'.view t → (f w).1 = (f w').1 ∧
    ∃ es : Log, (∀ e ∈ es, Owns t e.aad) ∧ (f w).2.log = es ++ w.log ∧ (f w').2.log = es ++ w'.log

section view
variable {α β : Type} {t t' a key nonce box text : Bytes} {w w' : World} {es : Log}
  {f : World → α × World}

/-- No associated data has two owners. -/
lemma Owns.inj (h : Owns t a) (h' : Owns t' a) : t = t' := by
  rcases h with rfl | rfl <;> rcases h' with h' | h'
  · exact aad_inj h'
  · exact absurd h' aad_domain_ne
  · exact absurd h'.symm aad_domain_ne
  · exact aad_inj h'

lemma view_append (h : w'.log = es ++ w.log) (hes : ∀ e ∈ es, Owns t e.aad) :
    w'.view t = es ++ w.view t := by
  rw [World.view, h, List.filter_append,
    List.filter_eq_self.mpr fun e he => by simpa using hes e he]
  rfl

lemma view_other (h : w'.log = es ++ w.log) (hes : ∀ e ∈ es, Owns t e.aad) (hne : t ≠ t') :
    w'.view t' = w.view t' := by
  have hnone : es.filter (fun e => Owns t' e.aad) = [] :=
    List.filter_eq_nil_iff.mpr fun e he => by simpa using fun h' => hne ((hes e he).inj h')
  rw [World.view, h, List.filter_append, hnone]
  rfl

namespace Local

/-- A local computation looks the same from two worlds that its tenant cannot tell apart. -/
lemma agree (h : Local t f) (hw : w.view t = w'.view t) :
    (f w).1 = (f w').1 ∧ (f w).2.view t = (f w').2.view t := by
  obtain ⟨hres, es, hes, hlog, hlog'⟩ := h w w' hw
  exact ⟨hres, by rw [view_append hlog hes, view_append hlog' hes, hw]⟩

/-- Another tenant does not see it. -/
lemma unseen (h : Local t f) (hne : t ≠ t') : (f w).2.view t' = w.view t' := by
  obtain ⟨-, es, hes, hlog, -⟩ := h w w rfl
  exact view_other hlog hes hne

lemma read {g : World → α} (h : ∀ w w', w.view t = w'.view t → g w = g w') :
    Local t fun w => (g w, w) :=
  fun w w' hw => ⟨h w w' hw, [], by simp, rfl, rfl⟩

lemma bind {next : α → World → β × World} (h : Local t f) (hnext : ∀ a, Local t (next a)) :
    Local t fun w => next (f w).1 (f w).2 := by
  intro w w' hw
  obtain ⟨hres, es, hes, hlog, hlog'⟩ := h w w' hw
  have hview := (h.agree hw).2
  obtain ⟨hres', es', hes', hlog₂, hlog₂'⟩ := hnext (f w).1 (f w).2 (f w').2 hview
  dsimp only
  rw [← hres]
  refine ⟨hres', es' ++ es, fun e he => (List.mem_append.mp he).elim (hes' e) (hes e), ?_, ?_⟩
  · rw [hlog₂, hlog, List.append_assoc]
  · rw [hlog₂', hlog', List.append_assoc]

lemma map (h : Local t f) (φ : α → β) : Local t fun w => (φ (f w).1, (f w).2) :=
  fun w w' hw => by
    obtain ⟨hres, hrest⟩ := h w w' hw
    exact ⟨congrArg φ hres, hrest⟩

end Local

lemma decrypt_view (ha : Owns t a) : decrypt w.log key nonce a text =
    decrypt (w.view t) key nonce a text := by
  unfold decrypt World.view
  rw [List.find?_filter]
  congr 2
  funext e
  by_cases he : e.aad = a
  · simp [he, ha]
  · simp [he]

/-- Opening under a tenant's associated data finds what was sealed for the tenant. -/
lemma aeadOpen_view (ha : Owns t a) (hw : w.view t = w'.view t) :
    aeadOpen w key a box = aeadOpen w' key a box := by
  unfold aeadOpen
  rw [decrypt_view ha, decrypt_view (w := w') ha, hw]

lemma local_aeadSeal {C : Cipher} {nonce : Nonce} {plaintext : Bytes} (ha : Owns t a) :
    Local t fun w => aeadSeal C w nonce key a plaintext := by
  intro w w' _
  unfold aeadSeal
  dsimp only
  by_cases hkey : key.length ≠ keyLen
  · rw [if_pos hkey, if_pos hkey]
    exact ⟨rfl, [], by simp, rfl, rfl⟩
  · rw [if_neg hkey, if_neg hkey]
    cases C.encrypt key nonce a plaintext with
    | none => exact ⟨rfl, [], by simp, rfl, rfl⟩
    | some ct =>
      exact ⟨rfl, [⟨key, nonce, a, plaintext, ct⟩], List.forall_mem_singleton.mpr ha, rfl, rfl⟩

end view

/-! ## The provider's operations -/

section provider
variable {P : Webauthn.Platform} {C : Cipher} {hmac : Bytes → Bytes → Index} {g : Guard}
  {p : SoftwareProvider} {handle : KeyHandle} {t wrapped plaintext ciphertext : Bytes}
  {w w' : World} {r : Draws} {call : Call}

lemma unwrapDek_view (hw : w.view t = w'.view t) :
    p.unwrapDek w handle t wrapped = p.unwrapDek w' handle t wrapped := by
  unfold SoftwareProvider.unwrapDek
  split
  · rfl
  · exact aeadOpen_view (.inl rfl) hw

lemma decryptField_view (hw : w.view t = w'.view t) :
    p.decryptField w handle t wrapped ciphertext =
      p.decryptField w' handle t wrapped ciphertext := by
  unfold SoftwareProvider.decryptField
  rw [unwrapDek_view hw]
  split
  · rfl
  · exact aeadOpen_view (.inr rfl) hw

lemma local_generateWrappedDek {dek : Dek} {nonce : Nonce} :
    Local t fun w => p.generateWrappedDek C w dek nonce handle t := by
  intro w w' hw
  unfold SoftwareProvider.generateWrappedDek
  split
  · exact ⟨rfl, [], by simp, rfl, rfl⟩
  · exact local_aeadSeal (.inl rfl) (w.draw dek) (w'.draw dek) hw

lemma local_encryptField {nonce : Nonce} :
    Local t fun w => p.encryptField C w nonce handle t wrapped plaintext := by
  intro w w' hw
  unfold SoftwareProvider.encryptField
  dsimp only
  rw [unwrapDek_view hw]
  split
  · exact ⟨rfl, [], by simp, rfl, rfl⟩
  · exact local_aeadSeal (.inr rfl) w w' hw

lemma local_rowKey : Local t fun w => g.rowKey C w r t wrapped := by
  unfold Guard.rowKey
  by_cases hempty : wrapped = []
  · simpa only [if_pos hempty] using local_generateWrappedDek
  · simpa only [if_neg hempty] using Local.read fun _ _ _ => rfl

lemma local_sealUnder {req : EncryptFieldRequest} {key : Except ProviderError Bytes} :
    Local (tenantOf req.context) (g.sealUnder C r req key) := by
  cases key with
  | error e => exact Local.read fun _ _ _ => rfl
  | ok wrapped =>
    exact local_encryptField.map fun res =>
      (res.mapError ProviderError.status).map fun c => EncryptFieldResponse.mk c wrapped

lemma local_sealRow {req : EncryptFieldRequest} :
    Local (tenantOf req.context) fun w => g.sealRow C w r req :=
  Local.bind (local_rowKey (C := C) (g := g) (r := r)) fun _ => local_sealUnder

/-- The work of a call is local to its tenant. -/
lemma local_work : Local (tenantOf call.context) fun w => g.work P C hmac w r call := by
  cases call with
  | verifyAssertion req => exact Local.read fun _ _ _ => rfl
  | encryptField req => exact local_sealRow.map _
  | decryptField req =>
    refine Local.read fun w w' hw => ?_
    have hdec : g.provider.decryptField w g.kek (tenantOf req.context) req.wrappedDek
        req.ciphertext = g.provider.decryptField w' g.kek (tenantOf req.context) req.wrappedDek
          req.ciphertext := decryptField_view hw
    rw [hdec]
  | blindIndex req => exact Local.read fun _ _ _ => rfl

end provider

/-! ## Runs -/

/-- Ahead of the calls `is`, the first state serves all of them, and the second is as good for
the tenant: it has as much left in every bucket, and the tenant sees the same in it. -/
structure Apart (P : Webauthn.Platform) (C : Cipher) (hmac : Bytes → Bytes → Index) (g : Guard)
    (keys : Finset Key) (t : Bytes) (is : List Incoming) (clock : ℚ) (s s' : State) : Prop where
  start : ∀ i ∈ is, clock ≤ i.moment.now
  sorted : (is.map fun i => i.moment.now).Pairwise (· ≤ ·)
  known : ∀ i ∈ is, i.key ∈ keys
  paid : ∀ x ∈ Machine.transcript (g.serve P C hmac) s is, x.2.limited = false
  lighter : Lighter g.limiter keys clock s.tables s'.tables
  view : s.world.view t = s'.world.view t

section apart
variable {P : Webauthn.Platform} {C : Cipher} {hmac : Bytes → Bytes → Index} {g : Guard}
  {keys : Finset Key} {t : Bytes} {i : Incoming} {is : List Incoming} {clock : ℚ} {s s' : State}

lemma Apart.later (hl : Sane g.limiter) (h : Apart P C hmac g keys t (i :: is) clock s s') :
    Apart P C hmac g keys t (i :: is) i.moment.now s s' := by
  have hsorted := List.pairwise_cons.mp h.sorted
  refine ⟨List.forall_mem_cons.mpr ⟨le_rfl, fun j hj => hsorted.1 _ (List.mem_map_of_mem hj)⟩,
    h.sorted, h.known, h.paid, h.lighter.later hl (h.start i List.mem_cons_self), h.view⟩

/-- The rest of the run, once a call has left both sides alike. -/
lemma Apart.next {u : State} (h : Apart P C hmac g keys t (i :: is) i.moment.now s s')
    (hlighter : Lighter g.limiter keys i.moment.now (g.serve P C hmac s i).2.tables u.tables)
    (hview : (g.serve P C hmac s i).2.world.view t = u.world.view t) :
    Apart P C hmac g keys t is i.moment.now (g.serve P C hmac s i).2 u where
  start := (List.forall_mem_cons.mp h.start).2
  sorted := (List.pairwise_cons.mp h.sorted).2
  known := (List.forall_mem_cons.mp h.known).2
  paid := (List.forall_mem_cons.mp h.paid).2
  lighter := hlighter
  view := hview

/-- A call that is not refused for its rate is refused at the gate or granted. -/
lemma granted_of_paid (h : (g.serve P C hmac s i).1.limited = false) :
    (∃ e, i.gate = .error e) ∨ i.gate = .ok () ∧
      (g.limiter.allow s.tables i.moment.now i.moment.order i.tenantID i.call.op).1 = true := by
  cases hgate : i.gate with
  | error e => exact .inl ⟨e, rfl⟩
  | ok u =>
    cases hallow :
        (g.limiter.allow s.tables i.moment.now i.moment.order i.tenantID i.call.op).1 with
    | false => simp [limited_iff.mpr ⟨hgate, hallow⟩] at h
    | true => exact .inr ⟨rfl, rfl⟩

/-- A call of another tenant. -/
lemma Apart.hidden (hl : Sane g.limiter) (hroom : keys.card < g.limiter.maxBuckets)
    (h : Apart P C hmac g keys t (i :: is) clock s s') (hne : i.tenantID ≠ t) :
    Apart P C hmac g keys t is i.moment.now (g.serve P C hmac s i).2 s' := by
  have hnow := h.later hl
  rcases granted_of_paid (List.forall_mem_cons.mp h.paid).1 with ⟨e, hgate⟩ | ⟨hgate, hallow⟩
  · refine hnow.next ?_ ?_ <;> rw [serve_rejected hgate]
    · exact hnow.lighter
    · exact hnow.view
  · refine hnow.next ?_ ?_ <;> rw [serve_done hgate hallow]
    · exact hnow.lighter.skip hl hroom (h.known i List.mem_cons_self) hallow
    · exact (local_work.unseen hne).trans hnow.view

/-- A call of the tenant. -/
lemma Apart.seen (hl : Sane g.limiter) (hroom : keys.card < g.limiter.maxBuckets)
    (h : Apart P C hmac g keys t (i :: is) clock s s') (heq : i.tenantID = t) :
    (g.serve P C hmac s i).1 = (g.serve P C hmac s' i).1 ∧
      Apart P C hmac g keys t is i.moment.now (g.serve P C hmac s i).2
        (g.serve P C hmac s' i).2 := by
  have hnow := h.later hl
  rcases granted_of_paid (List.forall_mem_cons.mp h.paid).1 with ⟨e, hgate⟩ | ⟨hgate, hallow⟩
  · have hlighter := hnow.lighter
    have hview := hnow.view
    refine ⟨by rw [serve_rejected hgate, serve_rejected hgate], hnow.next ?_ ?_⟩
    · rw [serve_rejected hgate, serve_rejected hgate]
      exact hlighter
    · rw [serve_rejected hgate, serve_rejected hgate]
      exact hview
  · obtain ⟨hallow', hlighter⟩ :=
      hnow.lighter.both i.moment.order hl hroom (h.known i List.mem_cons_self) hallow
    have hview : s.world.view (tenantOf i.call.context) = s'.world.view (tenantOf i.call.context) :=
      (congrArg s.world.view heq).trans (hnow.view.trans (congrArg s'.world.view heq.symm))
    obtain ⟨hanswer, hafter⟩ := (local_work (P := P) (C := C) (g := g) (r := i.draws)).agree hview
    refine ⟨?_, hnow.next ?_ ?_⟩ <;> rw [serve_done hgate hallow, serve_done hgate hallow']
    · exact hanswer
    · exact hlighter
    · exact heq ▸ hafter

/-- As long as the budget refuses nobody, a tenant is answered as if it were alone. -/
theorem tenant_isolation {provider : SoftwareProvider} {indexKey kek : KeyHandle}
    (hsorted : (is.map fun i => i.moment.now).Pairwise (· ≤ ·))
    (hroom : (is.map Incoming.key).toFinset.card < 10000)
    (hpaid : ∀ x ∈ Machine.transcript ((Guard.new provider indexKey kek).serve P C hmac) .start is,
      x.2.limited = false) :
    (Machine.transcript ((Guard.new provider indexKey kek).serve P C hmac) .start is).filter
        (fun x => x.1.tenantID = t) =
      Machine.transcript ((Guard.new provider indexKey kek).serve P C hmac) .start
        (is.filter fun i => i.tenantID = t) := by
  have hl : Sane (Guard.new provider indexKey kek).limiter := sane_new 120 (by norm_num)
  generalize hkeys : (is.map Incoming.key).toFinset = keys at hroom
  have hknown : ∀ i ∈ is, i.key ∈ keys := fun i hi =>
    hkeys ▸ List.mem_toFinset.mpr (List.mem_map_of_mem hi)
  have hstart : ∃ clock, ∀ i ∈ is, clock ≤ i.moment.now := by
    cases is with
    | nil => exact ⟨0, by simp⟩
    | cons i is =>
      exact ⟨i.moment.now, List.forall_mem_cons.mpr ⟨le_rfl, fun j hj =>
        (List.pairwise_cons.mp hsorted).1 _ (List.mem_map_of_mem hj)⟩⟩
  refine (Machine.transcript_filter (p := fun i : Incoming => decide (i.tenantID = t))
    (R := fun is s s' => ∃ clock, Apart P C hmac (.new provider indexKey kek) keys t is clock s s')
    ?_ ?_ ?_).1
  · obtain ⟨clock, hclock⟩ := hstart
    exact ⟨clock, hclock, hsorted, hknown, hpaid, lighter_empty, rfl⟩
  · rintro i is s s' ⟨clock, h⟩ hp
    exact ⟨_, h.hidden hl hroom (of_decide_eq_false hp)⟩
  · rintro i is s s' ⟨clock, h⟩ hp
    obtain ⟨hanswer, hnext⟩ := h.seen hl hroom (of_decide_eq_true hp)
    exact ⟨hanswer, _, hnext⟩

end apart

/-- A tenant whose row another one tried to read. -/
theorem tenant_isolation_row :
    (Machine.transcript (Row.guard.serve Row.platform Row.cipher Row.hmac) .start Row.calls).filter
        (fun x => x.1.tenantID = Row.tenant) =
      Machine.transcript (Row.guard.serve Row.platform Row.cipher Row.hmac) .start
        (Row.calls.filter fun i => i.tenantID = Row.tenant) :=
  tenant_isolation (by decide +kernel) (by decide +kernel) (by decide +kernel)

end AiAuth.CryptoService
