import AiAuth.Library.Bytes
import Mathlib.Data.List.Nodup

/-!
# Ideal authenticated encryption

Sealing is a function of the cipher. Opening looks into the record of what was sealed so far:
it succeeds exactly on a recorded text, under the key, nonce and associated data that it was
sealed with, and returns what was sealed.
-/
namespace AiAuth.Library.Aead

/-- The sealing side of a cipher. Every text carries at least its tag. -/
structure Cipher where
  /-- The arguments are the key, the nonce, the associated data and the message. -/
  encrypt : Bytes → Bytes → Bytes → Bytes → Option Bytes
  encrypt_ne_nil : ∀ key nonce aad msg, encrypt key nonce aad msg ≠ some []

/-- One use of a cipher. -/
structure Entry where
  key : Bytes
  nonce : Bytes
  aad : Bytes
  msg : Bytes
  text : Bytes
  deriving DecidableEq

/-- A cipher with the given texts; what is not among them is padded by an empty tag. -/
def Cipher.ofTable (table : List Entry) (htext : ∀ e ∈ table, e.text ≠ []) : Cipher where
  encrypt key nonce aad msg :=
    match table.find? fun e => e.key = key && e.nonce = nonce && e.aad = aad && e.msg = msg with
    | some e => some e.text
    | none => some (msg ++ List.replicate 16 0)
  encrypt_ne_nil key nonce aad msg := by
    split
    next e he => exact fun hnil => htext e (List.mem_of_find?_eq_some he) (Option.some.inj hnil)
    · exact fun hnil => List.cons_ne_nil _ _ (List.append_eq_nil_iff.mp (Option.some.inj hnil)).2

/-- The text with its nonce in front. -/
def Entry.box (e : Entry) : Bytes := e.nonce ++ e.text

abbrev Log := List Entry

def decrypt (log : Log) (key nonce aad text : Bytes) : Option Bytes :=
  (log.find? fun e => e.key = key && e.nonce = nonce && e.aad = aad && e.text = text).map Entry.msg

section decrypt
variable {log : Log} {key nonce aad text msg : Bytes}

lemma mem_of_decrypt (h : decrypt log key nonce aad text = some msg) :
    ⟨key, nonce, aad, msg, text⟩ ∈ log := by
  unfold decrypt at h
  obtain ⟨e, he, rfl⟩ := Option.map_eq_some_iff.mp h
  have htest := List.find?_some he
  simp only [Bool.and_eq_true, decide_eq_true_eq] at htest
  obtain ⟨⟨⟨rfl, rfl⟩, rfl⟩, rfl⟩ := htest
  exact List.mem_of_find?_eq_some he

/-- Where no nonce is used twice, a recorded text opens to what was sealed. -/
theorem decrypt_iff (hnonces : (log.map Entry.nonce).Nodup) :
    decrypt log key nonce aad text = some msg ↔ ⟨key, nonce, aad, msg, text⟩ ∈ log := by
  refine ⟨mem_of_decrypt, fun hmem => ?_⟩
  cases hd : decrypt log key nonce aad text with
  | none =>
    unfold decrypt at hd
    rw [Option.map_eq_none_iff, List.find?_eq_none] at hd
    simpa using hd _ hmem
  | some msg' =>
    have hsame := List.inj_on_of_nodup_map hnonces (mem_of_decrypt hd) hmem rfl
    rw [(Entry.mk.inj hsame).2.2.2.1]

end decrypt

end AiAuth.Library.Aead
