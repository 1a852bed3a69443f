import AiAuth.Library.Runs
import AiAuth.Service

/-!
# Envelope encryption over whole runs

Requests to encrypt and to decrypt, one after the other, with wrapped keys, texts and tenants
of the caller's choice. The random values of a request are new.
-/
namespace AiAuth.CryptoService
open Library Aead Limits

/-- A request with its answer. -/
inductive Event
  | encryptField (m : Moment) (r : Draws) (req : EncryptFieldRequest)
      (answer : Except Status EncryptFieldResponse)
  | decryptField (m : Moment) (req : DecryptFieldRequest)
      (answer : Except Status DecryptFieldResponse)

/-- None of the values was drawn before. -/
def Draws.fresh (r : Draws) (w : World) : Bool :=
  !w.drawn.contains r.dek.1 && !w.drawn.contains r.wrapNonce.1 &&
    !w.drawn.contains r.fieldNonce.1 && r.wrapNonce.1 != r.fieldNonce.1

def step (C : Cipher) (g : Guard) (s : State) : Event → Option State
  | .encryptField m r req answer =>
    let res := g.encryptField C s m r req
    if r.fresh s.world ∧ res.1 = answer then some res.2 else none
  | .decryptField m req answer =>
    let res := g.decryptField s m req
    if res.1 = answer then some res.2 else none

/-- A field as it was encrypted for a tenant. -/
structure Field where
  tenantID : Bytes
  plaintext : Bytes
  wrappedDek : Bytes
  ciphertext : Bytes

/-- The field that an answer hands out. -/
def Event.field : Event → Option Field
  | .encryptField _ _ req (.ok resp) =>
    some ⟨tenantOf req.context, req.plaintext, resp.wrappedDek, resp.ciphertext⟩
  | _ => none

/-- The wrapped key `wrapped` holds `dek` for the tenant. -/
def Wraps (w : World) (tenantID wrapped dek : Bytes) : Prop :=
  ∃ e ∈ w.log, e.aad = aad domainDekWrap tenantID ∧ e.msg = dek ∧ e.box = wrapped

/-- The text holds a plaintext for the tenant, under the key `dek`. -/
def Holds (w : World) (tenantID dek plaintext ciphertext : Bytes) : Prop :=
  ∃ e ∈ w.log, e.key = dek ∧ e.aad = aad domainField tenantID ∧ e.msg = plaintext ∧
    e.box = ciphertext

/-- Where the recorded entries come from: keys are wrapped under `kek` and are distinct, and the
sealed fields are exactly those handed out. -/
structure Provenance (kek : Bytes) (fields : List Field) (w : World) : Prop where
  ok : w.Ok
  nonce : ∀ e ∈ w.log, e.nonce ∈ w.drawn
  wrap : ∀ e ∈ w.log, ∀ t, e.aad = aad domainDekWrap t → e.key = kek ∧ e.msg ∈ w.drawn
  once : ∀ e ∈ w.log, ∀ e' ∈ w.log, ∀ t t', e.aad = aad domainDekWrap t →
    e'.aad = aad domainDekWrap t' → e.msg = e'.msg → e = e'
  sealed : ∀ e ∈ w.log, ∀ t, e.aad = aad domainField t →
    ∃ wrapped, Wraps w t wrapped e.key ∧ ⟨t, e.msg, wrapped, e.box⟩ ∈ fields
  handed : ∀ f ∈ fields, ∃ dek, Wraps w f.tenantID f.wrappedDek dek ∧
    Holds w f.tenantID dek f.plaintext f.ciphertext

section provenance
variable {kek : Bytes} {fields : List Field} {w : World} {t wrapped dek plaintext : Bytes}

lemma provenance_empty : Provenance kek [] ⟨[], []⟩ :=
  ⟨⟨List.nodup_nil, by simp, by simp, by simp⟩, by simp, by simp, by simp, by simp, by simp⟩

lemma Wraps.record (h : Wraps w t wrapped dek) (e : Entry) : Wraps (w.record e) t wrapped dek := by
  obtain ⟨e', he', hrest⟩ := h
  exact ⟨e', List.mem_cons_of_mem _ he', hrest⟩

lemma Holds.record {ciphertext : Bytes} (h : Holds w t dek plaintext ciphertext) (e : Entry) :
    Holds (w.record e) t dek plaintext ciphertext := by
  obtain ⟨e', he', hrest⟩ := h
  exact ⟨e', List.mem_cons_of_mem _ he', hrest⟩

/-- Values that are drawn and not used change nothing. -/
lemma Provenance.draw (h : Provenance kek fields w) (b : Bytes) :
    Provenance kek fields (w.draw b) :=
  ⟨⟨h.ok.nonces, h.ok.nonce, h.ok.text, h.ok.key⟩,
    fun e he => List.mem_cons_of_mem _ (h.nonce e he),
    fun e he t ht => ⟨(h.wrap e he t ht).1, List.mem_cons_of_mem _ (h.wrap e he t ht).2⟩,
    h.once, h.sealed, h.handed⟩

/-- A new entry under a new nonce. -/
lemma World.Ok.record (h : w.Ok) {e : Entry} (hnew : e.nonce ∉ w.log.map Entry.nonce)
    (hnonce : e.nonce.length = nonceLen) (htext : e.text ≠ []) (hkey : e.key.length = keyLen) :
    (w.record e).Ok where
  nonces := List.nodup_cons.mpr ⟨hnew, h.nonces⟩
  nonce := List.forall_mem_cons.mpr ⟨hnonce, h.nonce⟩
  text := List.forall_mem_cons.mpr ⟨htext, h.text⟩
  key := List.forall_mem_cons.mpr ⟨hkey, h.key⟩

/-- A new key is wrapped. -/
lemma Provenance.recordWrap (h : Provenance kek fields w) {e : Entry} (hok : (w.record e).Ok)
    (haad : e.aad = aad domainDekWrap t) (hkey : e.key = kek) (hnonce : e.nonce ∈ w.drawn)
    (hmsg : e.msg ∈ w.drawn)
    (hnew : ∀ e' ∈ w.log, ∀ t', e'.aad = aad domainDekWrap t' → e'.msg ≠ e.msg) :
    Provenance kek fields (w.record e) where
  ok := hok
  nonce := List.forall_mem_cons.mpr ⟨hnonce, h.nonce⟩
  wrap := List.forall_mem_cons.mpr ⟨fun _ _ => ⟨hkey, hmsg⟩, h.wrap⟩
  once := by
    intro e₁ he₁ e₂ he₂ t₁ t₂ ht₁ ht₂ heq
    rcases List.mem_cons.mp he₁ with rfl | hold₁ <;> rcases List.mem_cons.mp he₂ with rfl | hold₂
    · rfl
    · exact absurd heq.symm (hnew e₂ hold₂ t₂ ht₂)
    · exact absurd heq (hnew e₁ hold₁ t₁ ht₁)
    · exact h.once e₁ hold₁ e₂ hold₂ t₁ t₂ ht₁ ht₂ heq
  sealed := by
    intro e' he' t' ht'
    rcases List.mem_cons.mp he' with rfl | he'
    · exact absurd (haad.symm.trans ht') aad_domain_ne
    · obtain ⟨wrapped, hwraps, hmem⟩ := h.sealed e' he' t' ht'
      exact ⟨wrapped, hwraps.record e, hmem⟩
  handed := fun f hf => by
    obtain ⟨dek, hwraps, hholds⟩ := h.handed f hf
    exact ⟨dek, hwraps.record e, hholds.record e⟩

/-- A field is sealed under a wrapped key and handed out. -/
lemma Provenance.recordField (h : Provenance kek fields w) {e : Entry} (hok : (w.record e).Ok)
    (haad : e.aad = aad domainField t) (hnonce : e.nonce ∈ w.drawn)
    (hwraps : Wraps w t wrapped e.key) :
    Provenance kek (fields ++ [⟨t, e.msg, wrapped, e.box⟩]) (w.record e) where
  ok := hok
  nonce := List.forall_mem_cons.mpr ⟨hnonce, h.nonce⟩
  wrap := List.forall_mem_cons.mpr
    ⟨fun _ ht => absurd (ht.symm.trans haad) aad_domain_ne, h.wrap⟩
  once := by
    intro e₁ he₁ e₂ he₂ t₁ t₂ ht₁ ht₂ heq
    rcases List.mem_cons.mp he₁ with rfl | hold₁
    · exact absurd (ht₁.symm.trans haad) aad_domain_ne
    · rcases List.mem_cons.mp he₂ with rfl | hold₂
      · exact absurd (ht₂.symm.trans haad) aad_domain_ne
      · exact h.once e₁ hold₁ e₂ hold₂ t₁ t₂ ht₁ ht₂ heq
  sealed := by
    intro e' he' t' ht'
    rcases List.mem_cons.mp he' with rfl | he'
    · obtain rfl : t = t' := aad_inj (haad.symm.trans ht')
      exact ⟨wrapped, hwraps.record _, by simp⟩
    · obtain ⟨wrapped', hwraps', hmem⟩ := h.sealed e' he' t' ht'
      exact ⟨wrapped', hwraps'.record e, List.mem_append_left _ hmem⟩
  handed := by
    intro f hf
    rcases List.mem_append.mp hf with hf | hf
    · obtain ⟨dek, hwraps', hholds⟩ := h.handed f hf
      exact ⟨dek, hwraps'.record e, hholds.record e⟩
    · obtain rfl := List.mem_singleton.mp hf
      exact ⟨e.key, hwraps.record e, e, List.mem_cons_self, rfl, haad, rfl, rfl⟩

end provenance

/-! ## The provider under the invariant -/

section provider
variable {C : Cipher} {p : SoftwareProvider} {handle : KeyHandle} {kek : Bytes}
  {fields : List Field} {w w' : World} {t wrapped dek plaintext ciphertext : Bytes}

lemma unwrapDek_iff (hkek : p.keys.get handle = some kek) (h : Provenance kek fields w) :
    p.unwrapDek w handle t wrapped = .ok dek ↔ Wraps w t wrapped dek := by
  unfold SoftwareProvider.unwrapDek SoftwareProvider.getKek
  rw [hkek]
  refine (aeadOpen_iff h.ok).trans ⟨?_, ?_⟩
  · rintro ⟨e, he, -, haad, hmsg, hbox⟩
    exact ⟨e, he, haad, hmsg, hbox⟩
  · rintro ⟨e, he, haad, hmsg, hbox⟩
    exact ⟨e, he, (h.wrap e he t haad).1, haad, hmsg, hbox⟩

/-- A text opens for a tenant exactly if it was handed out for it, with the same wrapped key. -/
theorem decryptField_iff (hkek : p.keys.get handle = some kek) (h : Provenance kek fields w) :
    p.decryptField w handle t wrapped ciphertext = .ok plaintext ↔
      ⟨t, plaintext, wrapped, ciphertext⟩ ∈ fields := by
  have hopen : p.decryptField w handle t wrapped ciphertext = .ok plaintext ↔
      ∃ dek, Wraps w t wrapped dek ∧ Holds w t dek plaintext ciphertext := by
    unfold SoftwareProvider.decryptField
    cases hd : p.unwrapDek w handle t wrapped with
    | error e =>
      refine ⟨fun hc => absurd hc (by simp), ?_⟩
      rintro ⟨dek, hwraps, -⟩
      rw [(unwrapDek_iff hkek h).mpr hwraps] at hd
      cases hd
    | ok dek =>
      refine (aeadOpen_iff h.ok).trans ⟨fun hholds => ?_, ?_⟩
      · exact ⟨dek, (unwrapDek_iff hkek h).mp hd, hholds⟩
      · rintro ⟨dek', hwraps, hholds⟩
        rw [(unwrapDek_iff hkek h).mpr hwraps] at hd
        obtain rfl := Except.ok.inj hd
        exact hholds
  rw [hopen]
  constructor
  · rintro ⟨dek, ⟨e₁, he₁, haad₁, hmsg₁, rfl⟩, e, he, hkey, haad, rfl, rfl⟩
    obtain ⟨wrapped', ⟨e₂, he₂, haad₂, hmsg₂, rfl⟩, hmem⟩ := h.sealed e he t haad
    have hsame : e₁ = e₂ :=
      h.once e₁ he₁ e₂ he₂ t t haad₁ haad₂ (hmsg₁.trans (hkey.symm.trans hmsg₂.symm))
    exact hsame ▸ hmem
  · exact fun hmem => h.handed _ hmem

/-- Minting a key, or failing to. -/
lemma provenance_generateWrappedDek {res : Except ProviderError Bytes} {dek : Dek} {nonce : Nonce}
    (hkek : p.keys.get handle = some kek) (h : Provenance kek fields w) (hdek : dek.1 ∉ w.drawn)
    (hnonce : nonce.1 ∉ w.drawn)
    (hgen : p.generateWrappedDek C w dek nonce handle t = (res, w')) :
    Provenance kek fields w' ∧
      ∀ n : Nonce, n ≠ nonce → n.1 ∉ w.drawn → n.1 ∉ w'.log.map Entry.nonce := by
  have hold : ∀ n : Nonce, n.1 ∉ w.drawn → n.1 ∉ w.log.map Entry.nonce := by
    intro n hn hmem
    obtain ⟨e, he, hen⟩ := List.mem_map.mp hmem
    exact hn (hen ▸ h.nonce e he)
  unfold SoftwareProvider.generateWrappedDek SoftwareProvider.getKek at hgen
  rw [hkek] at hgen
  dsimp only at hgen
  cases res with
  | error e =>
    rcases aeadSeal_error hgen with rfl | rfl
    · exact ⟨h.draw _, fun n _ hn => hold n hn⟩
    · exact ⟨(h.draw _).draw _, fun n _ hn => hold n hn⟩
  | ok box =>
    obtain ⟨ct, hct, hkey, -, rfl⟩ := aeadSeal_ok hgen
    have hdrawn := (h.draw dek.1).draw nonce.1
    refine ⟨hdrawn.recordWrap (hdrawn.ok.record (hold nonce hnonce) nonce.2 hct hkey) rfl rfl
      List.mem_cons_self (List.mem_cons_of_mem _ List.mem_cons_self) ?_, ?_⟩
    · intro e he t' ht' heq
      have hmsg : e.msg = dek.1 := heq
      exact hdek (hmsg ▸ (h.wrap e he t' ht').2)
    · intro n hne hn hmem
      rcases List.mem_cons.mp hmem with heq | hmem
      · exact hne (Subtype.ext heq)
      · exact hold n hn hmem

/-- Sealing a field, or failing to. -/
lemma provenance_encryptField {res : Except ProviderError Bytes} {nonce : Nonce}
    (hkek : p.keys.get handle = some kek) (h : Provenance kek fields w)
    (hnonce : nonce.1 ∉ w.log.map Entry.nonce)
    (henc : p.encryptField C w nonce handle t wrapped plaintext = (res, w')) :
    (∀ e, res = .error e → Provenance kek fields w') ∧
      ∀ c, res = .ok c → Provenance kek (fields ++ [⟨t, plaintext, wrapped, c⟩]) w' := by
  unfold SoftwareProvider.encryptField at henc
  cases hd : p.unwrapDek w handle t wrapped with
  | error e =>
    rw [hd] at henc
    obtain ⟨rfl, rfl⟩ := Prod.mk.inj henc
    exact ⟨fun _ _ => h, fun c hc => absurd hc (by simp)⟩
  | ok dek =>
    rw [hd] at henc
    dsimp only at henc
    refine ⟨?_, ?_⟩
    · rintro e rfl
      rcases aeadSeal_error henc with rfl | rfl
      · exact h
      · exact h.draw _
    · rintro c rfl
      obtain ⟨ct, hct, hkey, rfl, rfl⟩ := aeadSeal_ok henc
      have hdrawn := h.draw nonce.1
      have hwraps : Wraps (w.draw nonce.1) t wrapped dek := (unwrapDek_iff hkek h).mp hd
      exact hdrawn.recordField (e := ⟨dek, nonce.1, aad domainField t, plaintext, ct⟩)
        (hdrawn.ok.record hnonce nonce.2 hct hkey) rfl List.mem_cons_self hwraps

end provider

/-! ## Runs -/

section runs
variable {C : Cipher} {g : Guard} {kek : Bytes} {fields : List Field} {s s' : State} {m : Moment}
  {r : Draws} {tr : List Event}

lemma provenance_rowKey {w w' : World} {res : Except ProviderError Bytes} {t wrapped : Bytes}
    (hkek : g.provider.keys.get g.kek = some kek) (h : Provenance kek fields w)
    (hfresh : r.fresh w = true) (hrow : g.rowKey C w r t wrapped = (res, w')) :
    Provenance kek fields w' ∧ r.fieldNonce.1 ∉ w'.log.map Entry.nonce := by
  simp only [Draws.fresh, Bool.and_eq_true, Bool.not_eq_true', List.contains_eq_mem,
    decide_eq_false_iff_not, bne_iff_ne] at hfresh
  obtain ⟨⟨⟨hdek, hwrap⟩, hfield⟩, hne⟩ := hfresh
  unfold Guard.rowKey at hrow
  by_cases hempty : wrapped = []
  · rw [if_pos hempty] at hrow
    obtain ⟨hp, hnew⟩ := provenance_generateWrappedDek hkek h hdek hwrap hrow
    exact ⟨hp, hnew r.fieldNonce (fun heq => hne (congrArg Subtype.val heq.symm)) hfield⟩
  · rw [if_neg hempty] at hrow
    obtain ⟨-, rfl⟩ := Prod.mk.inj hrow
    refine ⟨h, fun hmem => ?_⟩
    obtain ⟨e, he, hen⟩ := List.mem_map.mp hmem
    exact hfield (hen ▸ h.nonce e he)

lemma provenance_encrypt {req : EncryptFieldRequest} {answer : Except Status EncryptFieldResponse}
    (hkek : g.provider.keys.get g.kek = some kek) (h : Provenance kek fields s.world)
    (hfresh : r.fresh s.world = true) (henc : g.encryptField C s m r req = (answer, s')) :
    Provenance kek (fields ++ (Event.encryptField m r req answer).field.toList) s'.world := by
  rcases encryptField_cases henc with ⟨e, -, rfl, hworld⟩ | ⟨e, hrow, rfl⟩ |
    ⟨wrapped, w, hrow, res, hfield, hres⟩
  · simpa [Event.field, hworld] using h
  · simpa [Event.field] using (provenance_rowKey hkek h hfresh hrow).1
  · obtain ⟨hp, hnew⟩ := provenance_rowKey hkek h hfresh hrow
    obtain ⟨herror, hok⟩ := provenance_encryptField hkek hp hnew hfield
    rcases hres with ⟨e, rfl, rfl⟩ | ⟨c, rfl, rfl⟩
    · simpa [Event.field] using herror e rfl
    · exact hok c rfl

lemma provenance_step {a : Event} (hkek : g.provider.keys.get g.kek = some kek)
    (h : Provenance kek fields s.world) (hs : step C g s a = some s') :
    Provenance kek (fields ++ a.field.toList) s'.world := by
  cases a with
  | encryptField m r req answer =>
    simp only [step] at hs
    split_ifs at hs with hg
    obtain ⟨hfresh, hanswer⟩ := hg
    obtain rfl := Option.some.inj hs
    exact provenance_encrypt hkek h hfresh (Prod.ext hanswer rfl)
  | decryptField m req answer =>
    simp only [step] at hs
    split_ifs at hs with hanswer
    obtain rfl := Option.some.inj hs
    rw [(decryptField_cases (Prod.ext hanswer rfl)).1]
    simpa [Event.field] using h

lemma provenance_run (hkek : g.provider.keys.get g.kek = some kek)
    (hr : Run (StepOf (step C g)) .start tr s) :
    Provenance kek (tr.filterMap Event.field) s.world := by
  refine hr.invariant (fun tr s => Provenance kek (tr.filterMap Event.field) s.world)
    provenance_empty fun tr s a s' _ hp hs => ?_
  have hstep := provenance_step hkek hp hs
  rw [List.filterMap_append]
  cases hf : a.field <;> simpa [hf] using hstep

/-- A request to decrypt that passes the gate and the budget answers what the provider does. -/
lemma decryptField_passed {req : DecryptFieldRequest} {plaintext : Bytes}
    (hgate : validate req.context .rowDecrypt true = .ok ())
    (hbudget : (g.limiter.allow s.tables m.now m.order (tenantOf req.context)
      (ascii "decrypt_field")).1 = true) :
    (g.decryptField s m req).1 = .ok ⟨plaintext⟩ ↔
      g.provider.decryptField s.world g.kek (tenantOf req.context) req.wrappedDek
        req.ciphertext = .ok plaintext := by
  obtain ⟨-, hanswer⟩ := decryptField_cases (Prod.mk.eta (p := g.decryptField s m req)).symm
  have hpass : (g.enter s m (ascii "decrypt_field") .rowDecrypt true req.context).1 = .ok () :=
    (enter_cases rfl).2.mpr ⟨hgate, hbudget⟩
  rw [hpass] at hanswer
  simp only [reduceCtorEq, false_and, exists_false, true_and, false_or] at hanswer
  rw [hanswer]
  cases g.provider.decryptField s.world g.kek (tenantOf req.context) req.wrappedDek
      req.ciphertext with
  | error e => simp [Except.mapError, Except.map]
  | ok p => simp [Except.mapError, Except.map]

end runs

/-- A request to decrypt that passes the gate and the budget returns a plaintext exactly if an
earlier request encrypted it for the same tenant, and its answer was this ciphertext with
this wrapped key. -/
theorem envelope_exact {C : Cipher} {g : Guard} {kek : Bytes} {tr : List Event} {s : State}
    {m : Moment} {req : DecryptFieldRequest} {plaintext : Bytes}
    (hkek : g.provider.keys.get g.kek = some kek)
    (hr : Run (StepOf (step C g)) .start tr s)
    (hgate : validate req.context .rowDecrypt true = .ok ())
    (hbudget : (g.limiter.allow s.tables m.now m.order (tenantOf req.context)
      (ascii "decrypt_field")).1 = true) :
    (g.decryptField s m req).1 = .ok ⟨plaintext⟩ ↔
      ∃ m' r enc resp, .encryptField m' r enc (.ok resp) ∈ tr ∧
        tenantOf enc.context = tenantOf req.context ∧ enc.plaintext = plaintext ∧
        resp.wrappedDek = req.wrappedDek ∧ resp.ciphertext = req.ciphertext := by
  rw [decryptField_passed hgate hbudget, decryptField_iff hkek (provenance_run hkek hr),
    List.mem_filterMap]
  constructor
  · rintro ⟨a, ha, hfield⟩
    cases a with
    | encryptField m' r enc answer =>
      cases answer with
      | error e => cases hfield
      | ok resp =>
        obtain ⟨ht, hp, hw, hc⟩ := Field.mk.inj (Option.some.inj hfield)
        exact ⟨m', r, enc, resp, ha, ht, hp, hw, hc⟩
    | decryptField m' req' answer => cases hfield
  · rintro ⟨m', r, enc, resp, ha, ht, rfl, hw, hc⟩
    exact ⟨_, ha, by rw [← ht, ← hw, ← hc]; rfl⟩

namespace Row

def handle : KeyHandle := ⟨ascii "kek-1"⟩

def guard : Guard :=
  .new ((SoftwareProvider.new.withKey ⟨ascii "idx-1"⟩ (List.replicate 32 9)).withKey handle
    (List.replicate 32 3)) ⟨ascii "idx-1"⟩ handle

def tenant : Bytes := ascii "t1"

def context (purpose : ℤ) : Option RequestContext :=
  some ⟨tenant, ascii "s1", purpose, ascii "req-1"⟩

/-- `n` bytes counting up from `b`. -/
def counting (b n : ℕ) : Bytes := (List.range n).map fun i => UInt8.ofNat (b + i)

def dek : Dek := ⟨counting 64 32, rfl⟩

def wrapNonce : Nonce := ⟨counting 1 12, rfl⟩

def nameNonce : Nonce := ⟨counting 17 12, rfl⟩

def noteNonce : Nonce := ⟨counting 33 12, rfl⟩

def name : Bytes := ascii "alice@example.com"

/-- The wrapped key of the row. -/
def wrapped : Entry where
  key := List.replicate 32 3
  nonce := wrapNonce
  aad := aad domainDekWrap tenant
  msg := dek
  text :=
    [0x53, 0x79, 0x8c, 0x1b, 0x83, 0x41, 0x5d, 0xf9, 0x96, 0x00, 0x41, 0x97, 0x6e, 0xf9, 0xa3,
     0xa5, 0xeb, 0xab, 0xeb, 0x93, 0x48, 0xe7, 0xda, 0x36, 0xe7, 0x93, 0x05, 0x6c, 0xcc, 0xdf,
     0x05, 0x45, 0xcc, 0x6f, 0x1a, 0x99, 0xc8, 0x57, 0xda, 0xd9, 0x91, 0xe3, 0x8b, 0x85, 0x06,
     0xa0, 0xc6, 0xf0]

/-- A field of the row. -/
def nameField : Entry where
  key := dek
  nonce := nameNonce
  aad := aad domainField tenant
  msg := name
  text :=
    [0xd0, 0xb5, 0x91, 0xbd, 0x58, 0xf0, 0x21, 0xf1, 0xe4, 0x1b, 0x81, 0xeb, 0x03, 0x84, 0x3b,
     0xfa, 0x29, 0x45, 0x16, 0xf1, 0x55, 0xd3, 0x6f, 0x4c, 0xc8, 0x87, 0xfd, 0x13, 0x9f, 0x44,
     0xe5, 0x8e, 0xe9]

/-- An empty field of the same row. -/
def noteField : Entry where
  key := dek
  nonce := noteNonce
  aad := aad domainField tenant
  msg := []
  text := [0xd5, 0xac, 0x98, 0x2e, 0x2a, 0x5b, 0x03, 0x8e, 0x10, 0xf3, 0x7b, 0xc3, 0x46, 0x11, 0xe0,
     0xe9]

lemma text_ne_nil : ∀ e ∈ [wrapped, nameField, noteField], e.text ≠ [] := by
  decide

def cipher : Cipher := .ofTable [wrapped, nameField, noteField] text_ne_nil

/-- The request that mints the row's key. -/
def mint : EncryptFieldRequest := ⟨context 2, name, []⟩

/-- The request that uses it again. -/
def reuse : EncryptFieldRequest := ⟨context 2, [], wrapped.box⟩

/-- The clock and the keys of the tenants' map, after both. -/
def moment : Moment := ⟨0, [(tenant, ascii "encrypt_field")]⟩

def requests : List Event :=
  [.encryptField ⟨0, []⟩ ⟨dek, wrapNonce, nameNonce⟩ mint (.ok ⟨nameField.box, wrapped.box⟩),
    .encryptField moment ⟨⟨counting 128 32, rfl⟩, ⟨counting 128 12, rfl⟩, noteNonce⟩ reuse
      (.ok ⟨noteField.box, wrapped.box⟩)]

end Row

/-- Both fields of a row are read back. -/
theorem envelope_exact_row : ∃ s,
    (Row.guard.decryptField s Row.moment
      ⟨Row.context 3, Row.nameField.box, Row.wrapped.box⟩).1 = .ok ⟨Row.name⟩ ∧
    (Row.guard.decryptField s Row.moment
      ⟨Row.context 3, Row.noteField.box, Row.wrapped.box⟩).1 = .ok ⟨[]⟩ := by
  have hkek : Row.guard.provider.keys.get Row.guard.kek = some (List.replicate 32 3) := by
    decide +kernel
  have hgate : validate (Row.context 3) .rowDecrypt true = .ok () := by decide +kernel
  obtain ⟨s, hr, hbudget⟩ := Run.exists_of_foldlM_any (step Row.cipher Row.guard)
    (fun s => (Row.guard.limiter.allow s.tables Row.moment.now Row.moment.order
      (tenantOf (Row.context 3)) (ascii "decrypt_field")).1) State.start Row.requests
    (by decide +kernel)
  have hexact := fun plaintext ciphertext => @envelope_exact Row.cipher Row.guard _ Row.requests s
    Row.moment ⟨Row.context 3, ciphertext, Row.wrapped.box⟩ plaintext hkek hr hgate hbudget
  refine ⟨s, (hexact _ _).mpr ?_, (hexact _ _).mpr ?_⟩
  · exact ⟨_, _, Row.mint, ⟨Row.nameField.box, Row.wrapped.box⟩, List.mem_cons_self, rfl, rfl,
      rfl, rfl⟩
  · exact ⟨_, _, Row.reuse, ⟨Row.noteField.box, Row.wrapped.box⟩,
      List.mem_cons_of_mem _ List.mem_cons_self, rfl, rfl, rfl, rfl⟩

end AiAuth.CryptoService
