import AiAuth.Library.Aead
import AiAuth.Library.Dict
import AiAuth.Library.Frames

/-!
# The software provider

Fields are sealed under a key of their row, and that key travels wrapped under the key
encryption key. Both layers bind a domain and the tenant as associated data.
-/
namespace AiAuth.CryptoService
open Library Aead

/-- A reference to a key that the provider holds. -/
structure KeyHandle where
  id : Bytes
  deriving DecidableEq

inductive ProviderError
  | unknownKey (handle : KeyHandle)
  | backend (detail : Bytes)
  | decrypt
  deriving DecidableEq

def domainBlindIndex : Bytes := ascii "aiauth/blind-index/v1"

def domainDekWrap : Bytes := ascii "aiauth/dek-wrap/v1"

def domainField : Bytes := ascii "aiauth/field/v1"

def nonceLen : ℕ := 12

def dekLen : ℕ := 32

/-- Random bytes of a nonce. -/
abbrev Nonce := { b : Bytes // b.length = nonceLen }

/-- Random bytes of a data encryption key. -/
abbrev Dek := { b : Bytes // b.length = dekLen }

/-- The output of HMAC-SHA256. -/
abbrev Index := { b : Bytes // b.length = 32 }

/-- What was sealed so far, and the random values drawn so far. -/
structure World where
  log : Log
  drawn : List Bytes

def World.draw (w : World) (b : Bytes) : World := { w with drawn := b :: w.drawn }

def World.record (w : World) (e : Entry) : World := { w with log := e :: w.log }

/-- The key length of AES-256. -/
def keyLen : ℕ := 32

/-- A nonce, and behind it the text. -/
def aeadSeal (C : Cipher) (w : World) (nonce : Nonce) (key aad plaintext : Bytes) :
    Except ProviderError Bytes × World :=
  if key.length ≠ keyLen then (.error (.backend (ascii "Invalid Length")), w)
  else match C.encrypt key nonce aad plaintext with
    | none => (.error (.backend (ascii "aead::Error")), w.draw nonce)
    | some ct => (.ok (nonce ++ ct), (w.draw nonce).record ⟨key, nonce, aad, plaintext, ct⟩)

def aeadOpen (w : World) (key aad box : Bytes) : Except ProviderError Bytes :=
  if box.length ≤ nonceLen then .error .decrypt
  else if key.length ≠ keyLen then .error (.backend (ascii "Invalid Length"))
  else match decrypt w.log key (box.take nonceLen) aad (box.drop nonceLen) with
    | none => .error .decrypt
    | some plaintext => .ok plaintext

/-- Associated data: a domain and the tenant behind its length. -/
def aad (domain tenantID : Bytes) : Bytes := domain ++ bigEndian 8 tenantID.length ++ tenantID

structure SoftwareProvider where
  keys : Dict KeyHandle Bytes

namespace SoftwareProvider

def new : SoftwareProvider := ⟨Dict.empty⟩

def withKey (p : SoftwareProvider) (handle : KeyHandle) (material : Bytes) : SoftwareProvider :=
  ⟨p.keys.set handle material⟩

def getKek (p : SoftwareProvider) (handle : KeyHandle) : Except ProviderError Bytes :=
  match p.keys.get handle with
  | none => .error (.unknownKey handle)
  | some k => .ok k

def unwrapDek (p : SoftwareProvider) (w : World) (kek : KeyHandle) (tenantID wrapped : Bytes) :
    Except ProviderError Bytes :=
  match p.getKek kek with
  | .error e => .error e
  | .ok k => aeadOpen w k (aad domainDekWrap tenantID) wrapped

def generateWrappedDek (C : Cipher) (p : SoftwareProvider) (w : World) (dek : Dek) (nonce : Nonce)
    (kek : KeyHandle) (tenantID : Bytes) : Except ProviderError Bytes × World :=
  match p.getKek kek with
  | .error e => (.error e, w)
  | .ok k => aeadSeal C (w.draw dek) nonce k (aad domainDekWrap tenantID) dek

def encryptField (C : Cipher) (p : SoftwareProvider) (w : World) (nonce : Nonce) (kek : KeyHandle)
    (tenantID wrapped plaintext : Bytes) : Except ProviderError Bytes × World :=
  match p.unwrapDek w kek tenantID wrapped with
  | .error e => (.error e, w)
  | .ok dek => aeadSeal C w nonce dek (aad domainField tenantID) plaintext

def decryptField (p : SoftwareProvider) (w : World) (kek : KeyHandle)
    (tenantID wrapped ciphertext : Bytes) : Except ProviderError Bytes :=
  match p.unwrapDek w kek tenantID wrapped with
  | .error e => .error e
  | .ok dek => aeadOpen w dek (aad domainField tenantID) ciphertext

/-- A keyed digest of the domain, and of tenant and input behind their lengths. -/
def blindIndex (hmac : Bytes → Bytes → Index) (p : SoftwareProvider) (key : KeyHandle)
    (tenantID input : Bytes) : Except ProviderError Index :=
  match p.keys.get key with
  | none => .error (.unknownKey key)
  | some material => .ok (hmac material (domainBlindIndex ++ bigEndian 8 tenantID.length ++
      tenantID ++ bigEndian 8 input.length ++ input))

end SoftwareProvider

/-! ## Associated data -/

/-- The three domains part at their eighth byte. -/
lemma domains_prefixFree : PrefixFree [domainBlindIndex, domainDekWrap, domainField] := by
  decide +kernel

section aad
variable {domain domain' t t' : Bytes}

lemma aad_eq : aad domain t = domain ++ frame 8 t := by
  simp [aad, frame]

/-- The domain and the tenant can be read back. -/
lemma aad_domain_inj (hd : domain ∈ [domainDekWrap, domainField])
    (hd' : domain' ∈ [domainDekWrap, domainField]) (h : aad domain t = aad domain' t') :
    domain = domain' ∧ t = t' := by
  rw [aad_eq, aad_eq] at h
  obtain ⟨hdomain, htenant⟩ := domains_prefixFree.append_inj (List.mem_cons_of_mem _ hd)
    (List.mem_cons_of_mem _ hd') h
  exact ⟨hdomain, frame_inj htenant⟩

/-- One domain separates tenants. -/
lemma aad_inj (h : aad domain t = aad domain t') : t = t' := by
  rw [aad_eq, aad_eq] at h
  exact frame_inj (List.append_cancel_left h)

/-- A wrapped key and a field never share their associated data. -/
lemma aad_domain_ne : aad domainDekWrap t ≠ aad domainField t' := by
  intro h
  have hdomain := (aad_domain_inj List.mem_cons_self
    (List.mem_cons_of_mem _ List.mem_cons_self) h).1
  exact absurd hdomain (by decide +kernel)

end aad

/-! ## Sealing and opening -/

section sealing
variable {C : Cipher} {w w' : World} {nonce : Nonce} {key a plaintext box : Bytes}

/-- A successful seal records one entry, whose box it returns. -/
lemma aeadSeal_ok (h : aeadSeal C w nonce key a plaintext = (.ok box, w')) :
    ∃ ct, ct ≠ [] ∧ key.length = keyLen ∧ box = (Entry.mk key nonce a plaintext ct).box ∧
      w' = (w.draw nonce).record ⟨key, nonce, a, plaintext, ct⟩ := by
  unfold aeadSeal at h
  by_cases hkey : key.length ≠ keyLen
  · rw [if_pos hkey] at h
    cases h
  · rw [if_neg hkey] at h
    cases hct : C.encrypt key nonce a plaintext with
    | none =>
      rw [hct] at h
      cases h
    | some ct =>
      rw [hct] at h
      obtain ⟨hbox, rfl⟩ := Prod.mk.inj h
      obtain rfl := Except.ok.inj hbox
      refine ⟨ct, fun hnil => ?_, not_not.mp hkey, rfl, rfl⟩
      exact C.encrypt_ne_nil key nonce a plaintext (hnil ▸ hct)

/-- What opens was sealed under the same associated data. -/
lemma mem_of_aeadOpen (h : aeadOpen w key a box = .ok plaintext) :
    ∃ e ∈ w.log, e.key = key ∧ e.aad = a ∧ e.msg = plaintext ∧ e.box = box := by
  unfold aeadOpen at h
  split_ifs at h with hlen hkey
  split at h
  · cases h
  next p hp =>
    obtain rfl := Except.ok.inj h
    exact ⟨_, mem_of_decrypt hp, rfl, rfl, rfl, List.take_append_drop nonceLen box⟩

/-- Under a key of the right length there is one way to fail. -/
lemma aeadOpen_error {e : ProviderError} (hkey : key.length = keyLen)
    (h : aeadOpen w key a box = .error e) : e = .decrypt := by
  unfold aeadOpen at h
  by_cases hlen : box.length ≤ nonceLen
  · rw [if_pos hlen] at h
    exact (Except.error.inj h).symm
  · rw [if_neg hlen, if_neg (not_not.mpr hkey)] at h
    split at h
    · exact (Except.error.inj h).symm
    · cases h

/-- A failed seal records nothing. -/
lemma aeadSeal_error {e : ProviderError}
    (h : aeadSeal C w nonce key a plaintext = (.error e, w')) : w' = w ∨ w' = w.draw nonce := by
  unfold aeadSeal at h
  by_cases hkey : key.length ≠ keyLen
  · rw [if_pos hkey] at h
    exact .inl (Prod.mk.inj h).2.symm
  · rw [if_neg hkey] at h
    cases hct : C.encrypt key nonce a plaintext with
    | none =>
      rw [hct] at h
      exact .inr (Prod.mk.inj h).2.symm
    | some ct =>
      rw [hct] at h
      cases h

end sealing

/-- What every recorded entry is like. -/
structure World.Ok (w : World) : Prop where
  nonces : (w.log.map Entry.nonce).Nodup
  nonce : ∀ e ∈ w.log, e.nonce.length = nonceLen
  text : ∀ e ∈ w.log, e.text ≠ []
  key : ∀ e ∈ w.log, e.key.length = keyLen

/-- Opening succeeds exactly on the boxes of the record. -/
theorem aeadOpen_iff {w : World} (hw : w.Ok) {key a box plaintext : Bytes} :
    aeadOpen w key a box = .ok plaintext ↔
      ∃ e ∈ w.log, e.key = key ∧ e.aad = a ∧ e.msg = plaintext ∧ e.box = box := by
  refine ⟨mem_of_aeadOpen, ?_⟩
  rintro ⟨e, he, rfl, rfl, rfl, rfl⟩
  have hnonce := hw.nonce e he
  have htake : e.box.take nonceLen = e.nonce := by
    rw [Entry.box, ← hnonce, List.take_left]
  have hdrop : e.box.drop nonceLen = e.text := by
    rw [Entry.box, ← hnonce, List.drop_left]
  have hlen : ¬ e.box.length ≤ nonceLen := by
    have htext := List.length_pos_iff.mpr (hw.text e he)
    rw [Entry.box, List.length_append, hnonce]
    omega
  rw [aeadOpen, if_neg hlen, if_neg (not_not.mpr (hw.key e he)), htake, hdrop,
    (decrypt_iff hw.nonces).mpr he]

end AiAuth.CryptoService
