import AiAuth.Library.Base64
import AiAuth.Library.P256

/-!
# Compact signed objects

A header and a payload, each in base64url, joined by a dot; the signature is over
the digest of that text and is the 64 bytes of its two numbers. Hashing and the
signature scheme are what the program is given, whatever they are.
-/
namespace AiAuth.Library

/-- A hash function and a randomised signature scheme over P-256 keys. `sign` takes
the public half of the key, the digest and the randomness. -/
structure Crypto where
  sha256 : Bytes → Bytes
  sign : P256.Point → Bytes → Bytes → Option (ℕ × ℕ)
  verify : P256.Point → Bytes → ℕ → ℕ → Bool

/-- The functions at finitely many points: digests, and signatures by key and digest. -/
def Crypto.ofTables (digests : List (Bytes × Bytes)) (sigs : List (P256.Point × Bytes × ℕ × ℕ)) :
    Crypto where
  sha256 m := (digests.lookup m).getD []
  sign k d _ := (sigs.find? fun e => e.1 = k ∧ e.2.1 = d).map fun e => e.2.2
  verify k d r s := (k, d, r, s) ∈ sigs

namespace Jws

/-- The text a signature is over. -/
def signingInput (h p : Bytes) : Bytes := h ++ ch '.' :: p

def compact (signing sig : Bytes) : Bytes := signing ++ ch '.' :: Base64.encode sig

/-- The text before the signature. -/
def signedPart (jws : Bytes) : Bytes := (cut (ch '.') jws.reverse).2.reverse

/-- `r` and `s` at fixed width. -/
def sigBytes (r s : ℕ) : Bytes := bigEndian 32 r ++ bigEndian 32 s

/-- Whether 64 signature bytes verify over a signing input. -/
def verifySig (C : Crypto) (key : P256.Point) (signing sig : Bytes) : Bool :=
  C.verify key (C.sha256 signing) (ofBigEndian (sig.take 32)) (ofBigEndian (sig.drop 32))

lemma sigBytes_length (r s : ℕ) : (sigBytes r s).length = 64 := by
  rw [sigBytes, List.length_append, bigEndian_length, bigEndian_length]

/-- The two numbers of a signature are read back from its bytes. -/
theorem verifySig_sigBytes {C : Crypto} {key : P256.Point} {signing : Bytes} {r s : ℕ}
    (hr : r < 256 ^ 32) (hs : s < 256 ^ 32) :
    verifySig C key signing (sigBytes r s) = C.verify key (C.sha256 signing) r s := by
  have hfirst : (sigBytes r s).take 32 = bigEndian 32 r := List.take_left' (bigEndian_length 32 r)
  have hsecond : (sigBytes r s).drop 32 = bigEndian 32 s := List.drop_left' (bigEndian_length 32 r)
  rw [verifySig, hfirst, hsecond, ofBigEndian_bigEndian hr, ofBigEndian_bigEndian hs]

lemma dot_notMem_encode (bs : Bytes) : ch '.' ∉ Base64.encode bs :=
  fun h => (Base64.encode_symbols bs _ h).2.2 rfl

/-- A signing input determines its two parts, as base64url has no dot. -/
theorem signingInput_inj {h h' p p' : Bytes} (hh : ch '.' ∉ h) (hh' : ch '.' ∉ h')
    (heq : signingInput h p = signingInput h' p') : h = h' ∧ p = p' := by
  have hcut := congrArg (cut (ch '.')) heq
  rw [signingInput, signingInput, cut_append hh, cut_append hh'] at hcut
  exact Prod.mk.inj hcut

/-- Splitting a compact object at its dots gives back the three encodings. -/
theorem splitOn_compact (h p sig : Bytes) :
    splitOn (ch '.') (compact (signingInput (Base64.encode h) (Base64.encode p)) sig) =
      [Base64.encode h, Base64.encode p, Base64.encode sig] := by
  rw [compact, signingInput, List.append_assoc, List.cons_append,
    splitOn_append _ (dot_notMem_encode h), splitOn_append _ (dot_notMem_encode p),
    splitOn_of_notMem _ (dot_notMem_encode sig)]

@[simp] theorem signedPart_compact (signing sig : Bytes) :
    signedPart (compact signing sig) = signing := by
  have hdot : ch '.' ∉ (Base64.encode sig).reverse := by simpa using dot_notMem_encode sig
  rw [signedPart, compact, List.reverse_append, List.reverse_cons, List.append_assoc,
    List.singleton_append, cut_append hdot, List.reverse_reverse]

end Jws
end AiAuth.Library
