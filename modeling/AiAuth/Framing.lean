import AiAuth.Software
import Mathlib.Data.Set.Function

/-!
# What the digests and the seals are taken over

Every message of the provider is a domain with the caller's texts behind their lengths. The
texts can hold anything, lengths and domains included, and can still be read back.
-/
namespace AiAuth.CryptoService
open Library

/-- All that reaches the keyed digest of a blind index, one update behind the other. -/
def blindIndexText (tenantID input : Bytes) : Bytes :=
  domainBlindIndex ++ bigEndian 8 tenantID.length ++ tenantID ++
    bigEndian 8 input.length ++ input

section
variable {domain t t' i i' : Bytes}

lemma blindIndex_eq {hmac : Bytes → Bytes → Index} {p : SoftwareProvider} {key : KeyHandle}
    {material : Bytes} (hkey : p.keys.get key = some material) :
    p.blindIndex hmac key t i = .ok (hmac material (blindIndexText t i)) := by
  unfold SoftwareProvider.blindIndex
  rw [hkey]
  rfl

lemma blindIndexText_eq : blindIndexText t i = domainBlindIndex ++ (frame 8 t ++ frame 8 i) := by
  simp [blindIndexText, frame]

/-- The width of a length holds every length below 2^64. -/
lemma blindIndexText_inj (ht : t.length < 2 ^ 64) (ht' : t'.length < 2 ^ 64)
    (h : blindIndexText t i = blindIndexText t' i') : t = t' ∧ i = i' := by
  have hwidth : (256 : ℕ) ^ 8 = 2 ^ 64 := by norm_num
  rw [blindIndexText_eq, blindIndexText_eq] at h
  have hfields := List.append_cancel_left h
  obtain ⟨htenant, hinput⟩ := frame_append_inj (hwidth ▸ ht) (hwidth ▸ ht') hfields
  exact ⟨htenant, frame_inj hinput⟩

/-- No associated data is the message of a blind index. -/
theorem blindIndexText_ne_aad (hd : domain ∈ [domainDekWrap, domainField]) :
    blindIndexText t i ≠ aad domain t' := by
  intro h
  rw [blindIndexText_eq, aad_eq] at h
  have hdomain := (domains_prefixFree.append_inj List.mem_cons_self
    (List.mem_cons_of_mem _ hd) h).1
  subst hdomain
  exact absurd hd (by decide +kernel)

/-- Where a keyed digest tells the messages apart, a blind index is one of tenant and input. -/
lemma blindIndex_eq_iff {hmac : Bytes → Bytes → Index} {p : SoftwareProvider} {key : KeyHandle}
    {material : Bytes} {messages : Set Bytes} (hkey : p.keys.get key = some material)
    (hcollision : Set.InjOn (hmac material) messages) (hm : blindIndexText t i ∈ messages)
    (hm' : blindIndexText t' i' ∈ messages) (ht : t.length < 2 ^ 64) (ht' : t'.length < 2 ^ 64) :
    p.blindIndex hmac key t i = p.blindIndex hmac key t' i' ↔ t = t' ∧ i = i' := by
  rw [blindIndex_eq hkey, blindIndex_eq hkey]
  constructor
  · intro h
    have htext := hcollision hm hm' (Except.ok.inj h)
    exact blindIndexText_inj ht ht' htext
  · rintro ⟨rfl, rfl⟩
    rfl

end

/-- Framing is injective: messages are equal only for equal tenants and inputs, associated data
only for equal domains and tenants, and blind indexes under one key, where the messages do not
collide, only for equal tenants and inputs. -/
theorem framing_injective :
    (∀ t t' i i' : Bytes, t.length < 2 ^ 64 → t'.length < 2 ^ 64 →
      blindIndexText t i = blindIndexText t' i' → t = t' ∧ i = i') ∧
    (∀ domain ∈ [domainDekWrap, domainField], ∀ domain' ∈ [domainDekWrap, domainField],
      ∀ t t' : Bytes, aad domain t = aad domain' t' → domain = domain' ∧ t = t') ∧
    ∀ (hmac : Bytes → Bytes → Index) (p : SoftwareProvider) (key : KeyHandle) (material : Bytes)
      (messages : Set Bytes), p.keys.get key = some material →
      Set.InjOn (hmac material) messages → ∀ t t' i i' : Bytes,
      t.length < 2 ^ 64 → t'.length < 2 ^ 64 →
      blindIndexText t i ∈ messages → blindIndexText t' i' ∈ messages →
      p.blindIndex hmac key t i = .ok (hmac material (blindIndexText t i)) ∧
        (p.blindIndex hmac key t i = p.blindIndex hmac key t' i' ↔ t = t' ∧ i = i') := by
  refine ⟨fun t t' i i' ht ht' h => blindIndexText_inj ht ht' h,
    fun domain hd domain' hd' t t' h => aad_domain_inj hd hd' h, ?_⟩
  intro hmac p key material messages hkey hcollision t t' i i' ht ht' hm hm'
  exact ⟨blindIndex_eq hkey, blindIndex_eq_iff hkey hcollision hm hm' ht ht'⟩

namespace Shifted

/-- Two texts that are equal without the lengths: "ab" with "c", and "a" with "bc". -/
def messages : List Bytes :=
  [blindIndexText (ascii "ab") (ascii "c"), blindIndexText (ascii "a") (ascii "bc")]

def material : Bytes := List.replicate 32 7

def provider : SoftwareProvider := .withKey .new ⟨ascii "idx-1"⟩ material

def firstDigest : Index :=
  ⟨[28, 214, 186, 130, 67, 249, 92, 27, 245, 130, 45, 97, 206, 40, 229, 253, 217, 162, 65, 47,
    149, 201, 3, 85, 49, 244, 108, 191, 69, 34, 221, 19], rfl⟩

def secondDigest : Index :=
  ⟨[228, 249, 228, 24, 189, 133, 14, 77, 171, 49, 213, 243, 3, 123, 75, 174, 15, 207, 80, 211, 8,
    97, 177, 245, 110, 164, 250, 184, 45, 16, 157, 79], rfl⟩

/-- The digests of the two messages under the key. -/
def hmac (_key message : Bytes) : Index :=
  if message = blindIndexText (ascii "ab") (ascii "c") then firstDigest else secondDigest

lemma hmac_injOn : Set.InjOn (hmac material) { m | m ∈ messages } := by
  have htable : ∀ m ∈ messages, ∀ m' ∈ messages,
      hmac material m = hmac material m' → m = m' := by decide +kernel
  exact fun m hm m' hm' => htable m hm m' hm'

end Shifted

theorem framing_injective_shifted :
    Shifted.provider.blindIndex Shifted.hmac ⟨ascii "idx-1"⟩ (ascii "ab") (ascii "c") ≠
      Shifted.provider.blindIndex Shifted.hmac ⟨ascii "idx-1"⟩ (ascii "a") (ascii "bc") := by
  intro h
  have hiff := (framing_injective.2.2 Shifted.hmac Shifted.provider ⟨ascii "idx-1"⟩
    Shifted.material { m | m ∈ Shifted.messages } rfl Shifted.hmac_injOn (ascii "ab") (ascii "a")
    (ascii "c") (ascii "bc") (by decide) (by decide) List.mem_cons_self
    (List.mem_cons_of_mem _ List.mem_cons_self)).2
  have htenant := (hiff.mp h).1
  exact absurd htenant (by decide)

end AiAuth.CryptoService
