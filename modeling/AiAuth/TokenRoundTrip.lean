import AiAuth.SessionRuns
import Mathlib.Logic.Equiv.List

/-!
# Issued tokens verify

What the signer issues, and what a verifier with its key and issuer makes of it, under what the
libraries document: JSON keeps every string that is UTF-8 and repairs the others, and the key's
signatures verify and no others.
-/
namespace AiAuth.Tokens
open Library

/-! ## What the libraries promise -/

def Header.mapStrings (f : Bytes → Bytes) (h : Header) : Header := ⟨f h.alg, f h.typ, f h.kid⟩

namespace Claims

def mapStrings (f : Bytes → Bytes) (c : Claims) : Claims :=
  { c with
    issuer := f c.issuer
    subject := f c.subject
    audience := f c.audience
    tenantID := f c.tenantID
    scope := f c.scope
    jti := f c.jti
    confirm := c.confirm.map fun k => ⟨f k.jkt⟩ }

def strings (c : Claims) : List Bytes :=
  [c.issuer, c.subject, c.audience, c.tenantID, c.scope, c.jti] ++
    c.confirm.toList.map Confirm.jkt

/-- Every string is UTF-8. -/
def Utf8 (c : Claims) : Prop := ∀ b ∈ c.strings, isUtf8 b = true

lemma mapStrings_eq_self {f : Bytes → Bytes} {c : Claims} (h : ∀ b ∈ c.strings, f b = b) :
    c.mapStrings f = c := by
  obtain ⟨iss, sub, aud, tid, scope, iat, nbf, exp, jti, cnf⟩ := c
  simp only [strings, List.forall_mem_append, List.forall_mem_cons] at h
  obtain ⟨⟨hiss, hsub, haud, htid, hscope, hjti, -⟩, hcnf⟩ := h
  have hconfirm : (cnf.map fun k => (⟨f k.jkt⟩ : Confirm)) = cnf := by
    cases cnf with
    | none => rfl
    | some k => exact congrArg some (congrArg Confirm.mk (hcnf k.jkt (by simp)))
  simp only [mapStrings, hiss, hsub, haud, htid, hscope, hjti, hconfirm]

end Claims

/-- Writing and reading JSON: the strings come back repaired, and UTF-8 needs no repair. -/
structure Codec.Repairs (J : Codec) (repair : Bytes → Bytes) : Prop where
  header : ∀ h, J.unmarshalHeader (J.marshalHeader h) = some (h.mapStrings repair)
  claims : ∀ c, J.unmarshalClaims (J.marshalClaims c) = some (c.mapStrings repair)
  header_ne : ∀ h, J.marshalHeader h ≠ []
  claims_ne : ∀ c, J.marshalClaims c ≠ []
  utf8 : ∀ s, isUtf8 (repair s) = true
  self : ∀ s, isUtf8 s = true → repair s = s

/-- What the key has signed verifies, and nothing else does. -/
structure Ecdsa (C : Crypto) (key : P256.Point) (signed : Bytes → Prop) : Prop where
  signs : ∀ digest seed, signed digest → ∃ r sVal, C.sign key digest seed = some (r, sVal) ∧
    r < 256 ^ 32 ∧ sVal < 256 ^ 32 ∧ C.verify key digest r sVal = true
  only : ∀ digest r sVal, C.verify key digest r sVal = true → signed digest

/-- No two of the texts share a digest. -/
def NoCollision (C : Crypto) (texts : List Bytes) : Prop :=
  ∀ x ∈ texts, ∀ y ∈ texts, C.sha256 x = C.sha256 y → x = y

/-! ## Issuing -/

/-- A call of the signer: what it is asked for, and what the clock and the random source answer. -/
structure Mint where
  now : ℤ
  raw : Bytes
  seed : Bytes
  claims : Claims
  ttl : ℤ

namespace Mint

def jti (m : Mint) : Bytes := if m.claims.jti = [] then Base64.encode m.raw else m.claims.jti

/-- The claims with issuer, times and token id filled in. -/
def stamped (s : Signer) (m : Mint) : Claims := s.stamp m.now m.ttl m.jti m.claims

def token (s : Signer) (C : Crypto) (J : Codec) (m : Mint) : Except IssueError Bytes :=
  s.issue C J m.now (some m.raw) m.seed m.claims m.ttl

end Mint

/-- A call has the key sign the digest. -/
def Signed (s : Signer) (C : Crypto) (J : Codec) (calls : List Mint) (digest : Bytes) : Prop :=
  ∃ m ∈ calls, 0 < m.ttl ∧ digest = C.sha256 (s.signing J (m.stamped s))

/-- The text that a token's signature is over: its first two parts. -/
def signedText (token : Bytes) : Bytes :=
  match splitThree token with
  | some (part₀, part₁, _) => Jws.signingInput part₀ part₁
  | none => []

section issue
variable {s : Signer} {v : Verifier} {C : Crypto} {J : Codec} {repair : Bytes → Bytes}
  {calls : List Mint} {m : Mint}

lemma Mint.token_eq {r sVal : ℕ} (httl : 0 < m.ttl)
    (hsign : C.sign s.key (C.sha256 (s.signing J (m.stamped s))) m.seed = some (r, sVal)) :
    m.token s C J = .ok (Jws.compact (s.signing J (m.stamped s)) (Jws.sigBytes r sVal)) := by
  have hjti : Signer.tokenID m.claims.jti (some m.raw) = some m.jti := by
    unfold Signer.tokenID Mint.jti
    split_ifs <;> rfl
  unfold Mint.token Signer.issue
  rw [if_neg (not_le.mpr httl), hjti]
  dsimp only
  rw [show s.stamp m.now m.ttl m.jti m.claims = m.stamped s from rfl, hsign]

lemma splitThree_compact {h p sig : Bytes} (hh : h ≠ []) (hp : p ≠ []) (hsig : sig ≠ []) :
    splitThree (Jws.compact (Jws.signingInput (Base64.encode h) (Base64.encode p)) sig) =
      some (Base64.encode h, Base64.encode p, Base64.encode sig) := by
  refine splitThree_iff.mpr ⟨?_, Jws.dot_notMem_encode h, Jws.dot_notMem_encode p,
    Base64.encode_ne_nil hh, Base64.encode_ne_nil hp, Base64.encode_ne_nil hsig⟩
  rw [Jws.compact, Jws.signingInput, List.append_assoc, List.cons_append]

/-- A compact object whose signature verifies is judged by its claims. -/
lemma Verifier.verify_compact {now : ℤ} {audience h p sig : Bytes} {hd : Header} {c : Claims}
    (hh : J.unmarshalHeader h = some hd) (halg : hd.alg = ascii "ES256")
    (hp : J.unmarshalClaims p = some c) (hhne : h ≠ []) (hpne : p ≠ []) (hlen : sig.length = 64)
    (hver : Jws.verifySig C v.key (Jws.signingInput (Base64.encode h) (Base64.encode p)) sig =
      true) :
    v.verify C J now
        (Jws.compact (Jws.signingInput (Base64.encode h) (Base64.encode p)) sig) audience =
      v.checkClaims now audience c := by
  have hsig : sig ≠ [] := List.ne_nil_of_length_pos (by omega)
  unfold Verifier.verify
  rw [splitThree_compact hhne hpne hsig]
  simp only [Base64.decode_encode, Option.bind_some, hh, hp, halg, hlen, hver, ne_eq,
    not_true_eq_false, if_false, if_true]

/-- An issued token is judged by its claims as they are read back. -/
lemma verify_issued (hJ : J.Repairs repair) (hC : Ecdsa C s.key (Signed s C J calls))
    (hkey : v.key = s.key) (hm : m ∈ calls) (httl : 0 < m.ttl) :
    ∃ sig, m.token s C J = .ok (Jws.compact (s.signing J (m.stamped s)) sig) ∧
      ∀ t audience, v.verify C J t (Jws.compact (s.signing J (m.stamped s)) sig) audience =
        v.checkClaims t audience ((m.stamped s).mapStrings repair) := by
  obtain ⟨r, sVal, hsign, hr, hs, hver⟩ :=
    hC.signs (C.sha256 (s.signing J (m.stamped s))) m.seed ⟨m, hm, httl, rfl⟩
  have halg : repair (ascii "ES256") = ascii "ES256" := hJ.self _ (by decide)
  refine ⟨Jws.sigBytes r sVal, Mint.token_eq httl hsign, fun t audience => ?_⟩
  refine Verifier.verify_compact (hJ.header _) halg (hJ.claims _) (hJ.header_ne _)
    (hJ.claims_ne _) (Jws.sigBytes_length r sVal) ?_
  rw [hkey]
  exact (Jws.verifySig_sigBytes hr hs).trans hver

lemma stamped_utf8 (hiss : isUtf8 s.iss = true) (hc : m.claims.Utf8) : (m.stamped s).Utf8 := by
  have hjti : isUtf8 m.jti = true := by
    unfold Mint.jti
    split_ifs
    · exact isUtf8_of_ascii (Base64.encode_lt m.raw)
    · exact hc _ (by simp [Claims.strings])
  intro b hb
  simp only [Mint.stamped, Signer.stamp, Claims.strings, List.cons_append, List.nil_append,
    List.mem_cons] at hb
  rcases hb with rfl | rfl | rfl | rfl | rfl | rfl | hb
  · exact hiss
  · exact hc _ (by simp [Claims.strings])
  · exact hc _ (by simp [Claims.strings])
  · exact hc _ (by simp [Claims.strings])
  · exact hc _ (by simp [Claims.strings])
  · exact hjti
  · exact hc _ (List.mem_append_right _ hb)

/-- Its claims come back in the window, for their audience or for any. -/
def RoundTrips (s : Signer) (v : Verifier) (C : Crypto) (J : Codec) (m : Mint) : Prop :=
  ∃ tok, m.token s C J = .ok tok ∧ ∀ t audience c, v.verify C J t tok audience = .ok c ↔
    c = m.stamped s ∧ Time.ofUnix (m.stamped s).notBefore - v.leeway ≤ t ∧
      t ≤ Time.ofUnix (m.stamped s).expiresAt + v.leeway ∧
      (audience = [] ∨ audience = m.claims.audience)

lemma roundTrips (hJ : J.Repairs repair) (hC : Ecdsa C s.key (Signed s C J calls))
    (hkey : v.key = s.key) (hiss : v.iss = s.iss) (hutf8 : isUtf8 s.iss = true)
    (hleeway : v.leeway ≠ Time.minDuration) (hm : m ∈ calls) (httl : 0 < m.ttl)
    (hc : m.claims.Utf8) : RoundTrips s v C J m := by
  obtain ⟨sig, htok, hverify⟩ := verify_issued hJ hC hkey hm httl
  have hsame : (m.stamped s).mapStrings repair = m.stamped s :=
    Claims.mapStrings_eq_self fun b hb => hJ.self b (stamped_utf8 hutf8 hc b hb)
  have hissuer : (m.stamped s).issuer = v.iss := hiss.symm
  have haudience : (m.stamped s).audience = m.claims.audience := rfl
  refine ⟨_, htok, fun t audience c => ?_⟩
  rw [hverify, hsame, Verifier.checkClaims_iff, Time.neg_of_ne hleeway, ← sub_eq_add_neg,
    haudience]
  constructor
  · rintro ⟨hc, hexp, hnbf, -, haud⟩
    exact ⟨hc, hnbf, hexp, haud.imp_right Eq.symm⟩
  · rintro ⟨hc, hnbf, hexp, haud⟩
    exact ⟨hc, hexp, hnbf, hissuer, haud.imp_right Eq.symm⟩

/-- JSON cannot carry an issuer that is not UTF-8. -/
lemma not_roundTrips_of_issuer (hJ : J.Repairs repair)
    (hC : Ecdsa C s.key (Signed s C J calls)) (hkey : v.key = s.key) (hiss : v.iss = s.iss)
    (hutf8 : isUtf8 s.iss = false) (hm : m ∈ calls) (httl : 0 < m.ttl)
    (hleeway : 0 ≤ v.leeway) : ¬ RoundTrips s v C J m := by
  rintro ⟨tok, htok, hiff⟩
  obtain ⟨sig, htok', hverify⟩ := verify_issued (v := v) hJ hC hkey hm httl
  obtain rfl := Except.ok.inj (htok.symm.trans htok')
  have hwindow : Time.ofUnix (m.stamped s).notBefore ≤ Time.ofUnix (m.stamped s).expiresAt := by
    simp only [Mint.stamped, Signer.stamp, Time.ofUnix, Time.unix, Time.second]
    omega
  have hok := (hiff (Time.ofUnix (m.stamped s).notBefore) [] (m.stamped s)).mpr
    ⟨rfl, by omega, by omega, .inl rfl⟩
  rw [hverify, Verifier.checkClaims_iff] at hok
  have hissuer : repair s.iss = s.iss := hok.2.2.2.1.trans hiss
  have hrepaired := hJ.utf8 s.iss
  rw [hissuer, hutf8] at hrepaired
  cases hrepaired

/-- The least leeway is its own negation, and opens the window where it should close it. -/
lemma not_roundTrips_of_leeway (hJ : J.Repairs repair)
    (hC : Ecdsa C s.key (Signed s C J calls)) (hkey : v.key = s.key) (hiss : v.iss = s.iss)
    (hutf8 : isUtf8 s.iss = true) (hm : m ∈ calls) (httl : 0 < m.ttl) (hc : m.claims.Utf8)
    (hmax : m.ttl ≤ Time.maxDuration) (hleeway : v.leeway = Time.minDuration) :
    ¬ RoundTrips s v C J m := by
  rintro ⟨tok, htok, hiff⟩
  obtain ⟨sig, htok', hverify⟩ := verify_issued (v := v) hJ hC hkey hm httl
  obtain rfl := Except.ok.inj (htok.symm.trans htok')
  have hsame : (m.stamped s).mapStrings repair = m.stamped s :=
    Claims.mapStrings_eq_self fun b hb => hJ.self b (stamped_utf8 hutf8 hc b hb)
  have hwindow : Time.ofUnix (m.stamped s).notBefore ≤ Time.ofUnix (m.stamped s).expiresAt ∧
      Time.ofUnix (m.stamped s).expiresAt - Time.ofUnix (m.stamped s).notBefore ≤
        m.ttl + Time.second := by
    simp only [Mint.stamped, Signer.stamp, Time.ofUnix, Time.unix, Time.second]
    omega
  have hneg : Time.neg v.leeway = Time.minDuration := by
    rw [hleeway]
    exact if_pos rfl
  have hok : v.verify C J (Time.ofUnix (m.stamped s).expiresAt + v.leeway)
      (Jws.compact (s.signing J (m.stamped s)) sig) [] = .ok (m.stamped s) := by
    rw [hverify, hsame, Verifier.checkClaims_iff, hneg, hleeway]
    exact ⟨rfl, le_rfl, by omega, hiss.symm, .inl rfl⟩
  have hopen := ((hiff _ _ _).mp hok).2.1
  rw [hleeway] at hopen
  simp only [Time.minDuration, Time.maxDuration, Time.second] at *
  omega

/-- What verifies was signed, so its first two parts are those of a token that was issued. -/
lemma issued_of_verify {t : ℤ} {tok audience : Bytes} {c : Claims}
    (hJ : J.Repairs repair) (hC : Ecdsa C s.key (Signed s C J calls)) (hkey : v.key = s.key)
    (hcollision : NoCollision C
      (signedText tok :: calls.map fun m => s.signing J (m.stamped s)))
    (hok : v.verify C J t tok audience = .ok c) :
    ∃ m ∈ calls, ∃ tok', m.token s C J = .ok tok' ∧
      (splitOn (ch '.') tok').take 2 = (splitOn (ch '.') tok).take 2 := by
  obtain ⟨part₀, part₁, part₂, sig, hsplit, -, -, hver, -⟩ := Verifier.verify_ok hok
  obtain ⟨htok, hdot₀, hdot₁, -⟩ := splitThree_iff.mp hsplit
  have htext : signedText tok = Jws.signingInput part₀ part₁ := by
    rw [signedText, hsplit]
  rw [hkey] at hver
  obtain ⟨m, hm, httl, hdigest⟩ := hC.only _ _ _ hver
  have hsame : Jws.signingInput part₀ part₁ = s.signing J (m.stamped s) := by
    rw [← htext] at hdigest ⊢
    exact hcollision _ List.mem_cons_self _
      (List.mem_cons_of_mem _ (List.mem_map_of_mem hm)) hdigest
  obtain ⟨h₀, h₁⟩ := Jws.signingInput_inj hdot₀ (Jws.dot_notMem_encode _) hsame
  obtain ⟨sig', htok', -⟩ := verify_issued (v := v) hJ hC hkey hm httl
  refine ⟨m, hm, _, htok', ?_⟩
  rw [Signer.signing, Jws.splitOn_compact, htok, splitOn_append _ hdot₀, splitOn_append _ hdot₁, h₀,
    h₁]
  rfl

end issue

/-- With a UTF-8 issuer, and a leeway other than the least duration, every issued token comes back
in its window and for its audience, and whatever verifies starts like an issued token. -/
theorem token_round_trip {s : Signer} {v : Verifier} {C : Crypto} {J : Codec}
    {repair : Bytes → Bytes} {calls : List Mint} (hJ : J.Repairs repair)
    (hC : Ecdsa C s.key (Signed s C J calls)) (hkey : v.key = s.key) (hiss : v.iss = s.iss)
    (hutf8 : isUtf8 s.iss = true) (hleeway : v.leeway ≠ Time.minDuration) :
    (∀ m ∈ calls, 0 < m.ttl → m.claims.Utf8 → RoundTrips s v C J m) ∧
    ∀ t tok audience c, v.verify C J t tok audience = .ok c →
      NoCollision C (signedText tok :: calls.map fun m => s.signing J (m.stamped s)) →
      ∃ m ∈ calls, ∃ tok', m.token s C J = .ok tok' ∧
        (splitOn (ch '.') tok').take 2 = (splitOn (ch '.') tok).take 2 := by
  refine ⟨fun m hm httl hc => ?_, fun t tok audience c hok hcollision => ?_⟩
  · exact roundTrips hJ hC hkey hiss hutf8 hleeway hm httl hc
  · exact issued_of_verify hJ hC hkey hcollision hok

namespace Worked
open Sessions.Worked (signer issuer asked thumb jtiRaw moment headerText tokenSig tokenDigest)

/-! ### A codec with the given texts

What has no text of its own is numbered. -/

instance encodableByte : Encodable UInt8 :=
  .ofLeftInverse UInt8.toNat UInt8.ofNat fun _ => UInt8.ofNat_toNat

instance encodableHeader : Encodable Header :=
  .ofLeftInverse (fun h => (h.alg, h.typ, h.kid)) (fun x => ⟨x.1, x.2.1, x.2.2⟩) fun _ => rfl

instance encodableConfirm : Encodable Confirm := .ofLeftInverse Confirm.jkt Confirm.mk fun _ => rfl

instance encodableClaims : Encodable Claims :=
  .ofLeftInverse
    (fun c => ((c.issuer, c.subject, c.audience, c.tenantID, c.scope), (c.issuedAt, c.notBefore,
      c.expiresAt), c.jti, c.confirm))
    (fun x => ⟨x.1.1, x.1.2.1, x.1.2.2.1, x.1.2.2.2.1, x.1.2.2.2.2, x.2.1.1, x.2.1.2.1, x.2.1.2.2,
      x.2.2.1, x.2.2.2⟩) fun _ => rfl

section table
variable {α : Type} [DecidableEq α] [Encodable α] {table : List (α × Bytes)}

def write (table : List (α × Bytes)) (x : α) : Bytes :=
  match table.find? fun e => e.1 = x with
  | some e => e.2
  | none => List.replicate (Encodable.encode x + 1) 0

def read (table : List (α × Bytes)) (text : Bytes) : Option α :=
  match table.find? fun e => e.2 = text with
  | some e => some e.1
  | none => Encodable.decode (text.length - 1)

lemma write_ne_nil (hhead : ∀ e ∈ table, e.2.head? = some (ch '{')) (x : α) :
    write table x ≠ [] := by
  unfold write
  split
  next e he =>
    intro hnil
    have hfirst := hhead e (List.mem_of_find?_eq_some he)
    rw [hnil] at hfirst
    cases hfirst
  · exact List.cons_ne_nil _ _

/-- Texts of a table read back if no two are the same and none is a number. -/
lemma read_write (htexts : (table.map Prod.snd).Nodup)
    (hhead : ∀ e ∈ table, e.2.head? = some (ch '{')) (x : α) :
    read table (write table x) = some x := by
  unfold write
  split
  next e he =>
    have hx := List.find?_some he
    have hmem := List.mem_of_find?_eq_some he
    unfold read
    split
    next e' he' =>
      have htext := List.find?_some he'
      rw [decide_eq_true_eq] at hx htext
      rw [List.inj_on_of_nodup_map htexts (List.mem_of_find?_eq_some he') hmem htext, hx]
    next hnone => exact absurd (List.find?_eq_none.mp hnone e hmem) (by simp)
  · unfold read
    split
    next e' he' =>
      have htext := List.find?_some he'
      have hfirst := hhead e' (List.mem_of_find?_eq_some he')
      rw [decide_eq_true_eq] at htext
      rw [htext] at hfirst
      cases hfirst
    · rw [List.length_replicate, Nat.add_sub_cancel, Encodable.encodek]

end table

/-- A string that is not UTF-8 becomes the replacement character. -/
def repair (s : Bytes) : Bytes := if isUtf8 s then s else [0xEF, 0xBF, 0xBD]

/-- The claims under an issuer. -/
def claims (iss : Bytes) : Claims :=
  ⟨iss, ascii "u1", ascii "api", ascii "t1", ascii "openid", 1700000000, 1700000000, 1700000600,
    ascii "AAECAwQFBgcICQoLDA0ODw", some ⟨thumb⟩⟩

def claimsText (iss : Bytes) : Bytes :=
  ascii "\x7b\"iss\":\"" ++ iss ++ ascii "\",\"sub\":\"u1\",\"aud\":\"api\"," ++
    ascii "\"tid\":\"t1\",\"scope\":\"openid\",\"iat\":1700000000,\"nbf\":1700000000," ++
    ascii "\"exp\":1700000600,\"jti\":\"AAECAwQFBgcICQoLDA0ODw\",\"cnf\":\x7b\"jkt\":\"" ++
    thumb ++ ascii "\"\x7d\x7d"

def headers : List (Header × Bytes) := [(⟨ascii "ES256", ascii "at+jwt", ascii "k1"⟩, headerText)]

/-- The replacement character is written as an escape. -/
def payloads : List (Claims × Bytes) :=
  [(claims issuer, claimsText issuer), (claims [0xEF, 0xBF, 0xBD], claimsText (ascii "\\ufffd"))]

def codec : Codec where
  marshalHeader h := write headers (h.mapStrings repair)
  marshalClaims c := write payloads (c.mapStrings repair)
  unmarshalHeader := read headers
  unmarshalClaims := read payloads

lemma repairs : codec.Repairs repair where
  header h := read_write (by decide) (by decide) _
  claims c := read_write (by decide +kernel) (by decide) _
  header_ne h := write_ne_nil (by decide) _
  claims_ne c := write_ne_nil (by decide) _
  utf8 s := by
    unfold repair
    split_ifs with hs
    · exact hs
    · decide
  self s hs := if_pos hs

/-- One text with its digest, and the signature of that. -/
def crypto (text digest : Bytes) (sig : ℕ × ℕ) : Crypto :=
  .ofTables [(text, digest)] [(P256.generator, digest, sig)]

/-- A login for ten minutes. -/
def mint : Mint := ⟨moment 0, jtiRaw, [], asked, 10 * Time.minute⟩

lemma mint_ttl : 0 < mint.ttl := by decide

lemma asked_utf8 : mint.claims.Utf8 := by
  intro b hb
  have hall : mint.claims.strings.all isUtf8 = true := by decide
  exact List.all_eq_true.mp hall b hb

lemma ecdsa {s : Signer} {digest : Bytes} {sig : ℕ × ℕ} (hkey : s.key = P256.generator)
    (hr : sig.1 < 256 ^ 32) (hs : sig.2 < 256 ^ 32) :
    Ecdsa (crypto (s.signing codec (mint.stamped s)) digest sig) s.key
      (Signed s (crypto (s.signing codec (mint.stamped s)) digest sig) codec [mint]) := by
  have hdigest : (crypto (s.signing codec (mint.stamped s)) digest sig).sha256
      (s.signing codec (mint.stamped s)) = digest := by
    simp [crypto, Crypto.ofTables]
  constructor
  · rintro d seed ⟨m, hm, -, rfl⟩
    obtain rfl := List.mem_singleton.mp hm
    rw [hdigest, hkey]
    refine ⟨sig.1, sig.2, ?_, hr, hs, ?_⟩
    · simp [crypto, Crypto.ofTables]
    · simp [crypto, Crypto.ofTables]
  · intro d r sVal hver
    refine ⟨mint, List.mem_singleton_self _, mint_ttl, ?_⟩
    rw [hdigest]
    simp only [crypto, Crypto.ofTables, List.mem_singleton, Prod.mk.injEq,
      decide_eq_true_eq] at hver
    exact hver.2.1

lemma noCollision {text digest x : Bytes} {sig : ℕ × ℕ} (hdigest : digest ≠ []) :
    NoCollision (crypto text digest sig) [x, text] := by
  have hsame : ∀ y, (crypto text digest sig).sha256 y = digest → y = text := by
    intro y hy
    by_contra hne
    have hnone : [(text, digest)].lookup y = none := by
      rw [List.lookup_cons, beq_eq_false_iff_ne.mpr hne]
      rfl
    have hempty : (crypto text digest sig).sha256 y = [] := by
      simp only [crypto, Crypto.ofTables, hnone, Option.getD_none]
    exact hdigest (hy.symm.trans hempty)
  have htext : (crypto text digest sig).sha256 text = digest := by
    simp [crypto, Crypto.ofTables]
  intro y hy z hz heq
  rcases List.mem_pair.mp hy with rfl | rfl <;> rcases List.mem_pair.mp hz with rfl | rfl
  · rfl
  · exact hsame y (heq.trans htext)
  · exact (hsame z (heq.symm.trans htext)).symm
  · rfl

def platform : Crypto := crypto (signer.signing codec (mint.stamped signer)) tokenDigest tokenSig

lemma signer_ecdsa : Ecdsa platform signer.key (Signed signer platform codec [mint]) :=
  ecdsa rfl (by decide) (by decide)

def verifier : Verifier := .new issuer P256.generator signer.iss_ne

/-- A signer whose issuer is one byte that is not UTF-8. -/
def garbled : Signer := { signer with iss := [0xFF], iss_ne := List.cons_ne_nil _ _ }

def garbledDigest : Bytes :=
  bigEndian 32 0xebc34f71fb3cd7d75aa23db92a1158ab6f9b31a0a54366beb08fc3b1b9f87bf5

def garbledSig : ℕ × ℕ :=
  (0xc1d9ab44388d70e0ce5e5917037ea814424ed1997f6fcd8f8235cebde270d02c,
    0x76148d787373f3bff17c044eb9bdbf296612b1de9f6d5a923fa67189bbb1de58)

end Worked

/-- A token comes back, and it starts like one that was issued. -/
theorem token_round_trip_worked :
    RoundTrips Sessions.Worked.signer Worked.verifier Worked.platform Worked.codec Worked.mint ∧
    ∃ tok t c, Worked.verifier.verify Worked.platform Worked.codec t tok [] = .ok c ∧
      ∃ m ∈ [Worked.mint], ∃ tok',
        m.token Sessions.Worked.signer Worked.platform Worked.codec = .ok tok' ∧
        (splitOn (ch '.') tok').take 2 = (splitOn (ch '.') tok).take 2 := by
  have hC := Worked.signer_ecdsa
  obtain ⟨htrips, hissued⟩ := token_round_trip (v := Worked.verifier) Worked.repairs hC rfl rfl
    (by decide) (by decide)
  obtain ⟨tok, htok, hiff⟩ := htrips Worked.mint List.mem_cons_self Worked.mint_ttl
    Worked.asked_utf8
  have hok := (hiff (Sessions.Worked.moment 0) [] _).mpr ⟨rfl, by decide, by decide, .inl rfl⟩
  exact ⟨⟨tok, htok, hiff⟩, tok, _, _, hok, hissued _ _ _ _ hok (Worked.noCollision (by decide))⟩

/-- Neither condition can be left out: an issuer that is not UTF-8 is read back as another one,
and the least leeway is its own negation. -/
theorem round_trip_fails :
    (¬ ∀ (s : Signer) (v : Verifier) (C : Crypto) (J : Codec) (repair : Bytes → Bytes)
      (calls : List Mint), J.Repairs repair → Ecdsa C s.key (Signed s C J calls) →
      v.key = s.key → v.iss = s.iss → v.leeway ≠ Time.minDuration →
      ∀ m ∈ calls, 0 < m.ttl → m.claims.Utf8 → RoundTrips s v C J m) ∧
    ¬ ∀ (s : Signer) (v : Verifier) (C : Crypto) (J : Codec) (repair : Bytes → Bytes)
      (calls : List Mint), J.Repairs repair → Ecdsa C s.key (Signed s C J calls) →
      v.key = s.key → v.iss = s.iss → isUtf8 s.iss = true →
      ∀ m ∈ calls, 0 < m.ttl → m.claims.Utf8 → RoundTrips s v C J m := by
  constructor
  · intro h
    have hC := @Worked.ecdsa Worked.garbled Worked.garbledDigest Worked.garbledSig rfl (by decide)
      (by decide)
    refine not_roundTrips_of_issuer (v := .new [0xFF] P256.generator (by decide)) Worked.repairs hC
      rfl rfl (by decide) List.mem_cons_self Worked.mint_ttl (by decide) ?_
    exact h _ _ _ _ _ _ Worked.repairs hC rfl rfl (by decide) _ List.mem_cons_self
      Worked.mint_ttl Worked.asked_utf8
  · intro h
    have hC := Worked.signer_ecdsa
    refine not_roundTrips_of_leeway (v := { Worked.verifier with leeway := Time.minDuration })
      Worked.repairs hC rfl rfl (by decide) List.mem_cons_self Worked.mint_ttl Worked.asked_utf8
      (by decide) rfl ?_
    exact h _ _ _ _ _ _ Worked.repairs hC rfl rfl (by decide) _ List.mem_cons_self
      Worked.mint_ttl Worked.asked_utf8

end AiAuth.Tokens
