import AiAuth.Envelope

/-!
# What a failure says

Requests with texts and wrapped keys of the caller's choice, over the software provider. Whatever
opens as a wrapped key has the length of one, so no failure is the cipher's.
-/
namespace AiAuth.CryptoService
open Library Aead Limits

/-- The longest message that AES-GCM takes. -/
def maxMessage : ℕ := 2 ^ 36

/-- Under a key and a nonce of the right length, every message up to the longest is sealed. -/
def Seals (C : Cipher) : Prop :=
  ∀ key nonce a msg, key.length = keyLen → nonce.length = nonceLen → msg.length ≤ maxMessage →
    (C.encrypt key nonce a msg).isSome

/-- The one answer to a failure of the cryptography. -/
def denied : Status := ⟨.permissionDenied, ascii "not available for this context"⟩

/-- Whatever is sealed as a wrapped key is a key. -/
def KeysOnly (w : World) : Prop :=
  ∀ e ∈ w.log, ∀ t, e.aad = aad domainDekWrap t → e.msg.length = keyLen

/-! ## The provider -/

section provider
variable {C : Cipher} {p : SoftwareProvider} {w w' : World} {handle : KeyHandle} {kek : Bytes}
  {nonce : Nonce} {key a t wrapped dek plaintext ciphertext : Bytes} {e : ProviderError}

lemma aeadSeal_seals (hC : Seals C) (hkey : key.length = keyLen)
    (hlen : plaintext.length ≤ maxMessage) :
    ∃ box, (aeadSeal C w nonce key a plaintext).1 = .ok box := by
  obtain ⟨ct, hct⟩ := Option.isSome_iff_exists.mp (hC key nonce a plaintext hkey nonce.2 hlen)
  unfold aeadSeal
  rw [if_neg (not_not.mpr hkey), hct]
  exact ⟨_, rfl⟩

lemma KeysOnly.record (h : KeysOnly w) {e : Entry}
    (he : ∀ t, e.aad = aad domainDekWrap t → e.msg.length = keyLen) : KeysOnly (w.record e) :=
  List.forall_mem_cons.mpr ⟨he, h⟩

/-- A seal keeps the record to keys, if a message that is sealed as a key is one. -/
lemma KeysOnly.aeadSeal {res : Except ProviderError Bytes} (h : KeysOnly w)
    (hmsg : ∀ t, a = aad domainDekWrap t → plaintext.length = keyLen)
    (hseal : CryptoService.aeadSeal C w nonce key a plaintext = (res, w')) : KeysOnly w' := by
  cases res with
  | error e =>
    rcases aeadSeal_error hseal with rfl | rfl
    · exact h
    · exact h
  | ok box =>
    obtain ⟨ct, -, -, -, rfl⟩ := aeadSeal_ok hseal
    exact KeysOnly.record h hmsg

lemma unwrapDek_eq (hkek : p.keys.get handle = some kek) :
    p.unwrapDek w handle t wrapped = aeadOpen w kek (aad domainDekWrap t) wrapped := by
  unfold SoftwareProvider.unwrapDek SoftwareProvider.getKek
  rw [hkek]

/-- An unwrapped key has the length of a key. -/
lemma unwrapDek_length (hkek : p.keys.get handle = some kek) (h : KeysOnly w)
    (hopen : p.unwrapDek w handle t wrapped = .ok dek) : dek.length = keyLen := by
  rw [unwrapDek_eq hkek] at hopen
  obtain ⟨e, he, -, haad, rfl, -⟩ := mem_of_aeadOpen hopen
  exact h e he t haad

lemma unwrapDek_error (hkek : p.keys.get handle = some kek) (hlen : kek.length = keyLen)
    (hopen : p.unwrapDek w handle t wrapped = .error e) : e = .decrypt := by
  rw [unwrapDek_eq hkek] at hopen
  exact aeadOpen_error hlen hopen

lemma generateWrappedDek_seals {d : Dek} (hC : Seals C) (hkek : p.keys.get handle = some kek)
    (hlen : kek.length = keyLen) :
    ∃ box, (p.generateWrappedDek C w d nonce handle t).1 = .ok box := by
  unfold SoftwareProvider.generateWrappedDek SoftwareProvider.getKek
  rw [hkek]
  refine aeadSeal_seals hC hlen ?_
  rw [d.2]
  decide

lemma encryptField_error (hC : Seals C) (hkek : p.keys.get handle = some kek)
    (hlen : kek.length = keyLen) (h : KeysOnly w) (hmsg : plaintext.length ≤ maxMessage)
    (henc : p.encryptField C w nonce handle t wrapped plaintext = (.error e, w')) :
    e = .decrypt := by
  unfold SoftwareProvider.encryptField at henc
  cases hopen : p.unwrapDek w handle t wrapped with
  | error e' =>
    rw [hopen] at henc
    obtain ⟨heq, -⟩ := Prod.mk.inj henc
    exact Except.error.inj heq ▸ unwrapDek_error hkek hlen hopen
  | ok dek =>
    rw [hopen] at henc
    dsimp only at henc
    have hseals : ∃ box, (aeadSeal C w nonce dek (aad domainField t) plaintext).1 = .ok box :=
      aeadSeal_seals hC (unwrapDek_length hkek h hopen) hmsg
    obtain ⟨box, hbox⟩ := hseals
    rw [henc] at hbox
    cases hbox

lemma decryptField_error (hkek : p.keys.get handle = some kek) (hlen : kek.length = keyLen)
    (h : KeysOnly w) (hdec : p.decryptField w handle t wrapped ciphertext = .error e) :
    e = .decrypt := by
  unfold SoftwareProvider.decryptField at hdec
  cases hopen : p.unwrapDek w handle t wrapped with
  | error e' =>
    rw [hopen] at hdec
    exact Except.error.inj hdec ▸ unwrapDek_error hkek hlen hopen
  | ok dek =>
    rw [hopen] at hdec
    exact aeadOpen_error (unwrapDek_length hkek h hopen) hdec

/-- Whatever a request seals, only new keys are sealed as keys. -/
lemma KeysOnly.generateWrappedDek {res : Except ProviderError Bytes} {d : Dek} (h : KeysOnly w)
    (hgen : p.generateWrappedDek C w d nonce handle t = (res, w')) : KeysOnly w' := by
  unfold SoftwareProvider.generateWrappedDek at hgen
  split at hgen
  · exact (Prod.mk.inj hgen).2 ▸ h
  · exact KeysOnly.aeadSeal (w := w.draw d) h (fun _ _ => d.2) hgen

lemma KeysOnly.encryptField {res : Except ProviderError Bytes} (h : KeysOnly w)
    (henc : p.encryptField C w nonce handle t wrapped plaintext = (res, w')) : KeysOnly w' := by
  unfold SoftwareProvider.encryptField at henc
  split at henc
  · exact (Prod.mk.inj henc).2 ▸ h
  · exact KeysOnly.aeadSeal h (fun _ ht => absurd ht.symm aad_domain_ne) henc

end provider

/-! ## Requests -/

/-- A request and its answer, whatever random values it draws. -/
def attempt (C : Cipher) (g : Guard) (s : State) : Event → Option State
  | .encryptField m r req answer =>
    let res := g.encryptField C s m r req
    if res.1 = answer then some res.2 else none
  | .decryptField m req answer =>
    let res := g.decryptField s m req
    if res.1 = answer then some res.2 else none

namespace Event

/-- The request passes the gate and the limiter. -/
def passes (g : Guard) (s : State) : Event → Bool
  | encryptField m _ req _ =>
    validate req.context .rowEncrypt true = .ok () &&
      (g.limiter.allow s.tables m.now m.order (tenantOf req.context) (ascii "encrypt_field")).1
  | decryptField m req _ =>
    validate req.context .rowDecrypt true = .ok () &&
      (g.limiter.allow s.tables m.now m.order (tenantOf req.context) (ascii "decrypt_field")).1

/-- No plaintext is longer than the cipher takes. -/
def short : Event → Bool
  | encryptField _ _ req _ => req.plaintext.length ≤ maxMessage
  | decryptField _ _ _ => true

/-- What a failed request answers. -/
def failure : Event → Option Status
  | encryptField _ _ _ (.error e) => some e
  | decryptField _ _ (.error e) => some e
  | _ => none

end Event

section requests
variable {C : Cipher} {g : Guard} {kek : Bytes} {s s' : State} {m : Moment} {r : Draws} {a : Event}
  {tr : List Event}

/-- What an attempt can do: answer, and change the state with it. -/
lemma attempt_cases (h : attempt C g s a = some s') :
    (∃ m r req answer, a = .encryptField m r req answer ∧
      g.encryptField C s m r req = (answer, s')) ∨
    ∃ m req answer, a = .decryptField m req answer ∧ g.decryptField s m req = (answer, s') := by
  cases a with
  | encryptField m r req answer =>
    simp only [attempt] at h
    split_ifs at h with hanswer
    exact .inl ⟨m, r, req, answer, rfl, Prod.ext hanswer (Option.some.inj h)⟩
  | decryptField m req answer =>
    simp only [attempt] at h
    split_ifs at h with hanswer
    exact .inr ⟨m, req, answer, rfl, Prod.ext hanswer (Option.some.inj h)⟩

lemma KeysOnly.rowKey {w w' : World} {res : Except ProviderError Bytes} {t wrapped : Bytes}
    (h : KeysOnly w) (hrow : g.rowKey C w r t wrapped = (res, w')) : KeysOnly w' := by
  unfold Guard.rowKey at hrow
  split_ifs at hrow
  · exact h.generateWrappedDek hrow
  · exact (Prod.mk.inj hrow).2 ▸ h

lemma keysOnly_attempt (h : KeysOnly s.world) (ha : attempt C g s a = some s') :
    KeysOnly s'.world := by
  rcases attempt_cases ha with ⟨m, r, req, answer, -, henc⟩ | ⟨m, req, answer, -, hdec⟩
  · rcases encryptField_cases henc with ⟨e, -, -, hworld⟩ | ⟨e, hrow, -⟩ |
      ⟨wrapped, w, hrow, res, hfield, -⟩
    · rw [hworld]
      exact h
    · exact h.rowKey hrow
    · exact (h.rowKey hrow).encryptField hfield
  · rw [(decryptField_cases hdec).1]
    exact h

lemma keysOnly_run (hr : Run (StepOf (attempt C g)) .start tr s) : KeysOnly s.world := by
  refine hr.invariant (fun _ s => KeysOnly s.world) ?_ fun _ s a s' _ h ha => keysOnly_attempt h ha
  exact fun e he => absurd he List.not_mem_nil

/-- The key of the row is there, or new. -/
lemma rowKey_seals {w w' : World} {t wrapped : Bytes} {e : ProviderError} (hC : Seals C)
    (hkek : g.provider.keys.get g.kek = some kek) (hlen : kek.length = keyLen) :
    g.rowKey C w r t wrapped ≠ (.error e, w') := by
  intro hrow
  unfold Guard.rowKey at hrow
  split_ifs at hrow
  · have hseals : ∃ box,
        (g.provider.generateWrappedDek C w r.dek r.wrapNonce g.kek t).1 = .ok box :=
      generateWrappedDek_seals hC hkek hlen
    obtain ⟨box, hbox⟩ := hseals
    rw [hrow] at hbox
    cases hbox
  · cases hrow

/-- A request fails at the checks, or with the one answer. -/
lemma encrypt_failure {req : EncryptFieldRequest} {e : Status} (hC : Seals C)
    (hkek : g.provider.keys.get g.kek = some kek) (hlen : kek.length = keyLen)
    (h : KeysOnly s.world) (hmsg : req.plaintext.length ≤ maxMessage)
    (henc : g.encryptField C s m r req = (.error e, s')) :
    (g.enter s m (ascii "encrypt_field") .rowEncrypt true req.context).1 = .error e ∨
      e = denied := by
  rcases encryptField_cases henc with ⟨e', henter, heq, -⟩ | ⟨e', hrow, -⟩ |
    ⟨wrapped, w, hrow, res, hfield, hres⟩
  · exact .inl (Except.error.inj heq ▸ henter)
  · exact absurd hrow (rowKey_seals hC hkek hlen)
  · rcases hres with ⟨e', rfl, heq⟩ | ⟨c, -, heq⟩
    · obtain rfl := encryptField_error hC hkek hlen (h.rowKey hrow) hmsg hfield
      exact .inr (Except.error.inj heq)
    · cases heq

lemma decrypt_failure {req : DecryptFieldRequest} {e : Status}
    (hkek : g.provider.keys.get g.kek = some kek) (hlen : kek.length = keyLen)
    (h : KeysOnly s.world) (hdec : g.decryptField s m req = (.error e, s')) :
    (g.enter s m (ascii "decrypt_field") .rowDecrypt true req.context).1 = .error e ∨
      e = denied := by
  obtain ⟨-, ⟨e', henter, heq⟩ | ⟨-, heq⟩⟩ := decryptField_cases hdec
  · exact .inl (Except.error.inj heq ▸ henter)
  · cases hres : g.provider.decryptField s.world g.kek (tenantOf req.context) req.wrappedDek
        req.ciphertext with
    | error e' =>
      rw [hres, decryptField_error hkek hlen h hres] at heq
      exact .inr (Except.error.inj heq)
    | ok p =>
      rw [hres] at heq
      cases heq

/-- The checks have answers of their own. -/
lemma enter_error {op : Bytes} {want : Purpose} {ctx : Option RequestContext} {e : Status}
    (h : (g.enter s m op want true ctx).1 = .error e) :
    e.code ≠ .internal ∧ ¬(validate ctx want true = .ok () ∧
      (g.limiter.allow s.tables m.now m.order (tenantOf ctx) op).1 = true) := by
  refine ⟨?_, fun hpass => ?_⟩
  · rw [enter_eq] at h
    cases hv : validate ctx want true with
    | error e' =>
      rw [hv] at h
      obtain rfl := Except.error.inj h
      exact validate_error hv
    | ok u =>
      rw [hv] at h
      dsimp only at h
      split_ifs at h
      obtain rfl := Except.error.inj h
      exact Code.noConfusion
  · have hok : (g.enter s m op want true ctx).1 = .ok () := (enter_cases rfl).2.mpr hpass
    rw [hok] at h
    cases h

end requests

/-- Requests with any texts and wrapped keys: those that pass the gate and the limiter and fail
all get the same answer, and no request gets an internal error. -/
theorem failures_uniform {C : Cipher} {g : Guard} {kek : Bytes} {tr : List Event} {s s' : State}
    {a : Event} {e : Status} (hC : Seals C) (hkek : g.provider.keys.get g.kek = some kek)
    (hlen : kek.length = keyLen) (hr : Run (StepOf (attempt C g)) .start tr s)
    (ha : attempt C g s a = some s') (hshort : a.short = true) (hf : a.failure = some e) :
    (a.passes g s = true → e = ⟨.permissionDenied, ascii "not available for this context"⟩) ∧
      e.code ≠ .internal := by
  have hkeys := keysOnly_run hr
  rcases attempt_cases ha with ⟨m, r, req, answer, rfl, henc⟩ | ⟨m, req, answer, rfl, hdec⟩
  · cases answer with
    | ok resp => cases hf
    | error e' =>
      obtain rfl := Option.some.inj hf
      rcases encrypt_failure hC hkek hlen hkeys (of_decide_eq_true hshort) henc with henter | rfl
      · obtain ⟨hcode, hstopped⟩ := enter_error henter
        exact ⟨fun hpass => absurd (by simpa [Event.passes] using hpass) hstopped, hcode⟩
      · exact ⟨fun _ => rfl, Code.noConfusion⟩
  · cases answer with
    | ok resp => cases hf
    | error e' =>
      obtain rfl := Option.some.inj hf
      rcases decrypt_failure hkek hlen hkeys hdec with henter | rfl
      · obtain ⟨hcode, hstopped⟩ := enter_error henter
        exact ⟨fun hpass => absurd (by simpa [Event.passes] using hpass) hstopped, hcode⟩
      · exact ⟨fun _ => rfl, Code.noConfusion⟩

namespace Row

/-- The ciphertext of a field in the place of the wrapped key. -/
def swapped : Event :=
  .decryptField moment ⟨context 3, noteField.box, nameField.box⟩ (.error denied)

lemma cipher_seals : Seals cipher := by
  intro key nonce a msg _ _ _
  unfold cipher Cipher.ofTable
  dsimp only
  split <;> rfl

end Row

theorem failures_uniform_row : ∃ s, (attempt Row.cipher Row.guard s Row.swapped).isSome ∧
    denied = ⟨.permissionDenied, ascii "not available for this context"⟩ := by
  have hkek : Row.guard.provider.keys.get Row.guard.kek = some (List.replicate 32 3) := rfl
  obtain ⟨s, hr, hs⟩ := Run.exists_of_foldlM_any (attempt Row.cipher Row.guard)
    (fun s => (attempt Row.cipher Row.guard s Row.swapped).isSome && Row.swapped.passes Row.guard s)
    State.start Row.requests (by decide +kernel)
  rw [Bool.and_eq_true] at hs
  obtain ⟨s', hs'⟩ := Option.isSome_iff_exists.mp hs.1
  exact ⟨s, hs.1, (failures_uniform Row.cipher_seals hkek rfl hr hs' rfl rfl).1 hs.2⟩

end AiAuth.CryptoService
