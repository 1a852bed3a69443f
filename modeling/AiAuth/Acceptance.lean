import AiAuth.CloneDetection

/-!
# Accepted assertions

The acceptance of an assertion as one condition on its byte strings, and the accesses of the code
to them, all of which are in bounds. The digest of the client data has a fixed width, so what is
signed can be split in one way only.
-/
namespace AiAuth.Webauthn
open Library CryptoService

/-! ## Accesses -/

/-- `data[..n]`, if the data is that long. -/
def sliceTo (data : Bytes) (n : ℕ) : Option Bytes :=
  if n ≤ data.length then some (data.take n) else none

/-- The checks of the authenticator data with each of their accesses, which may be out of bounds. -/
def accessAuthData (P : Platform) (exp : Expectations) (authData : Bytes) :
    Option (Except Rejection ℕ) :=
  if authData.length < authDataMin then some (.error .malformedAuthenticatorData)
  else do
    let rpHash ← sliceTo authData 32
    if rpHash ≠ P.sha256 exp.rpID then some (.error .rpIdMismatch)
    else do
      let flags ← authData[32]?
      if flags &&& 1 = 0 then some (.error .userNotPresent)
      else do
        let b₀ ← authData[33]?
        let b₁ ← authData[34]?
        let b₂ ← authData[35]?
        let b₃ ← authData[36]?
        let count := ofBigEndian [b₀, b₁, b₂, b₃]
        if count ≠ 0 ∧ count ≤ exp.storedSignCount then some (.error .signCountRegression)
        else some (.ok count)

/-- The whole verification; `none` stands for an access out of bounds. -/
def verifyAccesses (P : Platform) (exp : Expectations) (publicKey : Bytes) (a : Assertion) :
    Option (Except Rejection Verified) :=
  match checkClientData P exp a.clientDataJSON with
  | .error e => some (.error e)
  | .ok () => (accessAuthData P exp a.authenticatorData).map fun
    | .error e => .error e
    | .ok count => (checkSignature P publicKey a).map fun () => ⟨count⟩

lemma counter_bytes {data : Bytes} (h : authDataMin ≤ data.length) :
    ∃ flags b₀ b₁ b₂ b₃, data[32]? = some flags ∧ data[33]? = some b₀ ∧ data[34]? = some b₁ ∧
      data[35]? = some b₂ ∧ data[36]? = some b₃ ∧ data.getD 32 0 = flags ∧
      (data.drop 33).take 4 = [b₀, b₁, b₂, b₃] := by
  have hlen : 36 < data.length := h
  refine ⟨data[32], data[33], data[34], data[35], data[36], ?_, ?_, ?_, ?_, ?_, ?_, ?_⟩
  · exact List.getElem?_eq_getElem _
  · exact List.getElem?_eq_getElem _
  · exact List.getElem?_eq_getElem _
  · exact List.getElem?_eq_getElem _
  · exact List.getElem?_eq_getElem _
  · rw [List.getD_eq_getElem?_getD, List.getElem?_eq_getElem (by omega), Option.getD_some]
  · rw [List.drop_eq_getElem_cons (by omega), List.drop_eq_getElem_cons (by omega),
      List.drop_eq_getElem_cons (by omega), List.drop_eq_getElem_cons (by omega)]
    rfl

/-- Behind the length check, the accesses are those of the checks. -/
lemma accessAuthData_eq (P : Platform) (exp : Expectations) (authData : Bytes) :
    accessAuthData P exp authData =
      some ((checkAuthData P exp authData).map fun () => signCount authData) := by
  unfold accessAuthData checkAuthData
  by_cases hlen : authData.length < authDataMin
  · rw [if_pos hlen, if_pos hlen]
    rfl
  · obtain ⟨flags, b₀, b₁, b₂, b₃, hflags, h₀, h₁, h₂, h₃, hget, hbytes⟩ :=
      counter_bytes (not_lt.mp hlen)
    have hslice : sliceTo authData 32 = some (authData.take 32) :=
      if_pos (le_trans (by decide) (not_lt.mp hlen))
    have hcount : signCount authData = ofBigEndian [b₀, b₁, b₂, b₃] := by
      rw [signCount, hbytes]
    have hpresent : userPresent authData = decide (flags &&& 1 ≠ 0) := by
      rw [userPresent, hget]
    rw [if_neg hlen, if_neg hlen, hslice, hflags, h₀, h₁, h₂, h₃, hcount, hpresent]
    simp only [Option.bind_eq_bind, Option.bind_some]
    by_cases hrp : authData.take 32 = P.sha256 exp.rpID
    · by_cases hup : flags &&& 1 = 0
      · simp [hrp, hup, Except.map]
      · by_cases hold : ofBigEndian [b₀, b₁, b₂, b₃] ≠ 0 ∧
            ofBigEndian [b₀, b₁, b₂, b₃] ≤ exp.storedSignCount
        · simp [hrp, hup, hold, Except.map]
        · simp only [hrp, hup, hold, ne_eq, not_true_eq_false, not_false_eq_true, decide_true,
            Bool.not_true, Bool.false_eq_true, if_false, Except.map]
    · simp [hrp, Except.map]

/-- No access is out of bounds. -/
theorem verifyAccesses_eq (P : Platform) (exp : Expectations) (publicKey : Bytes) (a : Assertion) :
    verifyAccesses P exp publicKey a = some (verify P exp publicKey a) := by
  unfold verifyAccesses verify
  cases checkClientData P exp a.clientDataJSON with
  | error e => rfl
  | ok u =>
    dsimp only
    rw [accessAuthData_eq]
    cases checkAuthData P exp a.authenticatorData with
    | error e => rfl
    | ok u =>
      cases checkSignature P publicKey a with
      | error e => rfl
      | ok u => rfl

/-! ## The condition -/

/-- What the client data must say. -/
structure Fits (exp : Expectations) (client : Json) : Prop where
  type : member client (ascii "type") = some (ascii "webauthn.get")
  challenge : ∃ text, member client (ascii "challenge") = some text ∧
    Base64.decodeStrict text = some exp.challenge
  origin : member client (ascii "origin") = some exp.origin

/-- What the signature is over. -/
def signedBytes (P : Platform) (a : Assertion) : Bytes :=
  a.authenticatorData ++ P.sha256 a.clientDataJSON

/-- All that an accepted assertion fulfils, with the counter it reports. -/
structure Accepts (P : Platform) (exp : Expectations) (publicKey : Bytes) (a : Assertion) (n : ℕ) :
    Prop where
  client : ∃ members, P.parseJson a.clientDataJSON = some (.object members) ∧
    Fits exp (.object members)
  length : 37 ≤ a.authenticatorData.length
  rpID : a.authenticatorData.take 32 = P.sha256 exp.rpID
  present : userPresent a.authenticatorData = true
  count : n = signCount a.authenticatorData
  fresh : n = 0 ∨ exp.storedSignCount < n
  signature : ∃ key r s, P.keyFromSec1 publicKey = some key ∧
    readSignature P a.signature = some (r, s) ∧
    P.verify key (P.sha256 (signedBytes P a)) r s = true

section condition
variable {P : Platform} {exp : Expectations} {publicKey : Bytes} {a : Assertion}

/-- Only objects have members. -/
lemma object_of_member {client : Json} {key s : Bytes} (h : member client key = some s) :
    ∃ members, client = .object members := by
  cases client with
  | object members => exact ⟨members, rfl⟩
  | _ => cases h

lemma checkClientData_ok_iff {clientDataJSON : Bytes} :
    checkClientData P exp clientDataJSON = .ok () ↔
      ∃ members, P.parseJson clientDataJSON = some (.object members) ∧
        Fits exp (.object members) := by
  constructor
  · intro h
    unfold checkClientData at h
    split at h
    · cases h
    next client hclient =>
      by_cases htype : member client (ascii "type") = some (ascii "webauthn.get")
      · rw [if_neg (not_not.mpr htype)] at h
        cases hchallenge : (member client (ascii "challenge")).bind Base64.decodeStrict with
        | none =>
          rw [hchallenge] at h
          cases h
        | some challenge =>
          rw [hchallenge] at h
          dsimp only at h
          split_ifs at h with hsame horigin
          obtain ⟨members, rfl⟩ := object_of_member htype
          obtain ⟨text, htext, hdecode⟩ := Option.bind_eq_some_iff.mp hchallenge
          obtain rfl := not_not.mp hsame
          exact ⟨members, hclient, htype, ⟨text, htext, hdecode⟩, not_not.mp horigin⟩
      · rw [if_pos htype] at h
        cases h
  · rintro ⟨members, hclient, htype, ⟨text, htext, hdecode⟩, horigin⟩
    simp [checkClientData, hclient, htype, htext, hdecode, horigin]

lemma checkAuthData_ok_iff {authData : Bytes} :
    checkAuthData P exp authData = .ok () ↔
      37 ≤ authData.length ∧ authData.take 32 = P.sha256 exp.rpID ∧
        userPresent authData = true ∧
        (signCount authData = 0 ∨ exp.storedSignCount < signCount authData) := by
  constructor
  · intro h
    unfold checkAuthData at h
    split_ifs at h with hlen hrp hup hcount
    refine ⟨not_lt.mp hlen, not_not.mp hrp, by simpa using hup, ?_⟩
    by_cases hzero : signCount authData = 0
    · exact .inl hzero
    · exact .inr (not_le.mp fun hle => hcount ⟨hzero, hle⟩)
  · rintro ⟨hlen, hrp, hup, hcount⟩
    have hfresh : ¬ (signCount authData ≠ 0 ∧ signCount authData ≤ exp.storedSignCount) := by
      omega
    simp [checkAuthData, authDataMin, not_lt.mpr hlen, hrp, hup, hfresh]

lemma checkSignature_ok_iff :
    checkSignature P publicKey a = .ok () ↔ ∃ key r s, P.keyFromSec1 publicKey = some key ∧
      readSignature P a.signature = some (r, s) ∧
      P.verify key (P.sha256 (signedBytes P a)) r s = true := by
  constructor
  · intro h
    unfold checkSignature at h
    split at h
    · cases h
    next key hkey =>
      split at h
      · cases h
      next r s hsig =>
        dsimp only at h
        split_ifs at h with hverify
        exact ⟨key, r, s, hkey, hsig, hverify⟩
  · rintro ⟨key, r, s, hkey, hsig, hverify⟩
    unfold signedBytes at hverify
    simp [checkSignature, hkey, hsig, hverify]

theorem verify_ok_iff {n : ℕ} :
    verify P exp publicKey a = .ok ⟨n⟩ ↔ Accepts P exp publicKey a n := by
  have hchecks : verify P exp publicKey a = .ok ⟨n⟩ ↔
      checkClientData P exp a.clientDataJSON = .ok () ∧
        checkAuthData P exp a.authenticatorData = .ok () ∧
        checkSignature P publicKey a = .ok () ∧ n = signCount a.authenticatorData := by
    unfold verify
    cases checkClientData P exp a.clientDataJSON with
    | error e => simp
    | ok u =>
      cases checkAuthData P exp a.authenticatorData with
      | error e => simp
      | ok u =>
        cases checkSignature P publicKey a with
        | error e => simp
        | ok u => simp [eq_comm]
  rw [hchecks, checkClientData_ok_iff, checkAuthData_ok_iff, checkSignature_ok_iff]
  constructor
  · rintro ⟨hclient, ⟨hlen, hrp, hup, hfresh⟩, hsig, rfl⟩
    exact ⟨hclient, hlen, hrp, hup, rfl, hfresh, hsig⟩
  · rintro ⟨hclient, hlen, hrp, hup, rfl, hfresh, hsig⟩
    exact ⟨hclient, ⟨hlen, hrp, hup, hfresh⟩, hsig, rfl⟩

/-- With digests of one width, and none shared with the client data, the signed bytes have only
one split. -/
lemma split_unique (hwidth : ∀ m m', (P.sha256 m).length = (P.sha256 m').length)
    (hdigest : ∀ m, P.sha256 m = P.sha256 a.clientDataJSON → m = a.clientDataJSON)
    {authData clientData : Bytes} (h : authData ++ P.sha256 clientData = signedBytes P a) :
    authData = a.authenticatorData ∧ clientData = a.clientDataJSON := by
  obtain ⟨hauth, hclient⟩ := List.append_inj' h (hwidth _ _)
  exact ⟨hauth, hdigest _ hclient⟩

end condition

/-- An assertion is accepted if and only if it meets the condition, and without an access out of
bounds. Where signatures cannot be forged and the digest of the client data is that of no other
text, the key of the credential signed these data, and their bytes are those of no other pair. -/
theorem acceptance_exact (P : Platform) (exp : Expectations) (publicKey : Bytes) (a : Assertion) :
    verifyAccesses P exp publicKey a = some (verify P exp publicKey a) ∧
    (∀ n, verify P exp publicKey a = .ok ⟨n⟩ ↔ Accepts P exp publicKey a n) ∧
    ∀ signed : P256.Point → Bytes → Prop,
      (∀ m m', (P.sha256 m).length = (P.sha256 m').length) →
      (∀ m, P.sha256 m = P.sha256 a.clientDataJSON → m = a.clientDataJSON) →
      (∀ key m r s, P.verify key (P.sha256 m) r s = true → signed key m) →
      ∀ v, verify P exp publicKey a = .ok v →
        ∃ key, P.keyFromSec1 publicKey = some key ∧ signed key (signedBytes P a) ∧
          ∀ authData clientData, authData ++ P.sha256 clientData = signedBytes P a →
            authData = a.authenticatorData ∧ clientData = a.clientDataJSON := by
  refine ⟨verifyAccesses_eq P exp publicKey a, fun n => verify_ok_iff, ?_⟩
  intro signed hwidth hdigest hunforged v hv
  obtain ⟨key, r, s, hkey, -, hverify⟩ := (verify_ok_iff.mp hv).signature
  exact ⟨key, hkey, hunforged key _ r s hverify, fun _ _ h => split_unique hwidth hdigest h⟩

namespace Worked
open Flow.Worked

def clientDigest : Bytes := (digests.lookup (clientData 2)).getD []

/-- SHA-256 at the three messages of one assertion. -/
def sha256 (m : Bytes) : Bytes :=
  if m = signed 2 then signedDigest 2
  else if m = clientData 2 then clientDigest
  else if m = rpID then rpDigest
  else List.replicate 32 0

def platform : Platform :=
  { Flow.Worked.platform with
    sha256 := sha256
    verify := fun key digest r s =>
      (key, digest, r, s) = (P256.doubled, signedDigest 2, numbers 2) }

def expectations : Expectations := ⟨rpID, origin, challenge 2, 4⟩

end Worked

theorem acceptance_exact_worked :
    verify Worked.platform Worked.expectations Flow.Worked.publicKey (Flow.Worked.assertion 2) =
      .ok ⟨5⟩ ∧
    ∃ key, Worked.platform.keyFromSec1 Flow.Worked.publicKey = some key ∧ key = P256.doubled ∧
      ∀ authData clientData, authData ++ Worked.sha256 clientData = Flow.Worked.signed 2 →
        authData = (Flow.Worked.assertion 2).authenticatorData ∧
          clientData = (Flow.Worked.assertion 2).clientDataJSON := by
  have hbytes : signedBytes Worked.platform (Flow.Worked.assertion 2) = Flow.Worked.signed 2 := by
    decide +kernel
  have hverify : verify Worked.platform Worked.expectations Flow.Worked.publicKey
      (Flow.Worked.assertion 2) = .ok ⟨5⟩ := by
    decide +kernel
  have hclient : Worked.sha256 (Flow.Worked.clientData 2) = Worked.clientDigest := by
    decide +kernel
  have hwidth : ∀ m, (Worked.sha256 m).length = 32 := by
    intro m
    unfold Worked.sha256
    split_ifs <;> rfl
  have hdigest : ∀ m, Worked.sha256 m = Worked.sha256 (Flow.Worked.clientData 2) →
      m = Flow.Worked.clientData 2 := by
    intro m h
    rw [hclient] at h
    unfold Worked.sha256 at h
    split_ifs at h with h₁ h₂
    · exact absurd h (by decide)
    · exact h₂
    · exact absurd h (by decide)
    · exact absurd h (by decide)
  have hunforged : ∀ key m r s, Worked.platform.verify key (Worked.sha256 m) r s = true →
      key = P256.doubled ∧ m = Flow.Worked.signed 2 := by
    intro key m r s h
    obtain ⟨hkey, h⟩ := Prod.mk.inj (of_decide_eq_true h)
    have hsigned : Worked.sha256 m = Flow.Worked.signedDigest 2 := (Prod.mk.inj h).1
    unfold Worked.sha256 at hsigned
    split_ifs at hsigned with h₁
    · exact ⟨hkey, h₁⟩
    · exact absurd hsigned (by decide)
    · exact absurd hsigned (by decide)
    · exact absurd hsigned (by decide)
  obtain ⟨-, -, hsplit⟩ := acceptance_exact Worked.platform Worked.expectations
    Flow.Worked.publicKey (Flow.Worked.assertion 2)
  obtain ⟨key, hkey, ⟨rfl, -⟩, hunique⟩ := hsplit
    (fun key m => key = P256.doubled ∧ m = Flow.Worked.signed 2)
    (fun m m' => (hwidth m).trans (hwidth m').symm) hdigest hunforged _ hverify
  exact ⟨hverify, _, hkey, rfl, hbytes ▸ hunique⟩

end AiAuth.Webauthn
