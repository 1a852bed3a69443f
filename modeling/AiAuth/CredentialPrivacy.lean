import AiAuth.Login

/-!
# Whether a credential exists

The whole of a finish request, against two ceremonies that differ in one credential. Both give
the one answer to a failed authentication, unless the Guard itself fails to answer: it is asked
only where the credential exists.
-/
namespace AiAuth.Login
open Library Oidc CryptoService

/-- The stores behind a ceremony. -/
structure Stores where
  challenges : Challenges
  credentials : Credentials
  pending : PendingStore
  codes : CodeStore

/-- The clock as one finish request reads it, and what the random source answers. -/
structure Readings where
  challenge : ℤ
  pending : ℤ
  authTime : ℤ
  sweep : ℤ
  code : ℤ
  raw : Option Bytes

/-- The Guard as the ceremony sees it; no answer stands for an error. -/
abbrev Verifier := Ask → Option VerifyAssertionResponse

namespace Ceremony

/-- Finish with the assertion read: ask the Guard and act on its verdict. -/
def conclude (c : Ceremony) (guard : Verifier) (s : Stores) (clk : Readings) (req : FinishRequest)
    (challenge : Bytes) (cred : Credential) (assertion : Assertion) : Response × Stores :=
  match judge (guard (c.ask challenge cred assertion)) with
  | .error resp => (resp, s)
  | .ok count =>
    let s := { s with credentials := persist s.credentials cred count }
    match takePending s.pending clk.pending req.rid with
    | (.error resp, pending) => (resp, { s with pending := pending })
    | (.ok authz, pending) =>
      let res := issueCode s.codes clk.sweep clk.code clk.raw authz (grant cred authz clk.authTime)
      (res.1, { s with pending := pending, codes := res.2 })

def finish (c : Ceremony) (guard : Verifier) (s : Stores) (clk : Readings)
    (body : Option FinishRequest) : Response × Stores :=
  match takeChallenge s.challenges clk.challenge body with
  | (.error resp, challenges) => (resp, { s with challenges := challenges })
  | (.ok (req, challenge), challenges) =>
    let s := { s with challenges := challenges }
    match lookup s.credentials req with
    | .error resp => (resp, s)
    | .ok (cred, assertion) => c.conclude guard s clk req challenge cred assertion

/-- The assertion of a request whose three parts decode. -/
def assertionOf (req : FinishRequest) : Option Assertion :=
  match Base64.decode req.authenticatorData, Base64.decode req.clientDataJSON,
      Base64.decode req.signature with
  | some authData, some clientData, some sig => some ⟨authData, clientData, sig⟩
  | _, _, _ => none

section finish
variable {c : Ceremony} {guard : Verifier} {s : Stores} {clk : Readings} {req : FinishRequest}
  {credentials : Credentials} {cred : Credential} {challenge : Bytes}

lemma lookup_absent (h : credentials.items.get req.credentialID = none) :
    lookup credentials req = .error deny := by
  simp only [lookup, Credentials.get, h]

lemma lookup_present (h : credentials.items.get req.credentialID = some cred) :
    lookup credentials req = (assertionOf req).elim (.error deny) fun a => .ok (cred, a) := by
  simp only [lookup, Credentials.get, h, assertionOf]
  split <;> simp_all

/-- Without a positive verdict the ceremony ends with a denial, or with an error of its own
when the Guard has no answer. -/
lemma conclude_refused {assertion : Assertion}
    (h : ∀ resp, guard (c.ask challenge cred assertion) = some resp →
      resp.verdict ≠ verdictVerified) :
    (c.conclude guard s clk req challenge cred assertion).1 =
      if guard (c.ask challenge cred assertion) = none then
        fail 503 (ascii "authentication unavailable")
      else deny := by
  unfold conclude judge
  cases hg : guard (c.ask challenge cred assertion) with
  | none => rfl
  | some resp =>
    simp only [if_pos (h resp hg)]
    rfl

lemma unavailable_ne_deny : fail 503 (ascii "authentication unavailable") ≠ deny := by
  intro h
  have hstatus := congrArg Response.status h
  cases hstatus

/-- An attempt reaches the Guard, and the Guard has no answer. -/
def GuardFails (c : Ceremony) (guard : Verifier) (s : Stores) (clk : Readings)
    (body : Option FinishRequest) (cred : Credential) : Prop :=
  ∃ req challenge assertion, body = some req ∧
    (s.challenges.take clk.challenge req.rid).1 = .ok challenge ∧
    assertionOf req = some assertion ∧ guard (c.ask challenge cred assertion) = none

end finish

/-- For every verdict but a positive one, the answer is the same whether the named credential
exists or not, exactly when it is not the Guard that fails. -/
theorem finish_hides_iff {c : Ceremony} {guard : Verifier} {s : Stores} {clk : Readings}
    {body : Option FinishRequest} {present absent : Credentials} {cred : Credential}
    (hnamed : ∀ req, body = some req → present.items.get req.credentialID = some cred ∧
      absent.items.get req.credentialID = none)
    (hverdict : ∀ a resp, guard a = some resp → resp.verdict ≠ verdictVerified) :
    (c.finish guard { s with credentials := present } clk body).1 =
        (c.finish guard { s with credentials := absent } clk body).1 ↔
      ¬ c.GuardFails guard s clk body cred := by
  unfold finish
  cases htake : takeChallenge s.challenges clk.challenge body with
  | mk res challenges =>
    cases res with
    | error resp =>
      simp only [true_iff]
      rintro ⟨req, challenge, assertion, rfl, hch, -⟩
      obtain ⟨left, htaken⟩ : ∃ left, s.challenges.take clk.challenge req.rid =
          (.ok challenge, left) := ⟨_, Prod.ext hch rfl⟩
      simp [takeChallenge, htaken] at htake
    | ok found =>
      obtain ⟨req, challenge⟩ := found
      obtain ⟨rfl, hch⟩ := takeChallenge_ok htake
      obtain ⟨hpresent, habsent⟩ := hnamed req rfl
      simp only [lookup_absent habsent, lookup_present hpresent]
      cases hassertion : assertionOf req with
      | none =>
        simp only [Option.elim_none, true_iff]
        rintro ⟨req', challenge', assertion, hreq, -, hdecoded, -⟩
        obtain rfl := Option.some.inj hreq
        rw [hassertion] at hdecoded
        cases hdecoded
      | some assertion =>
        have hfails : c.GuardFails guard s clk (some req) cred ↔
            guard (c.ask challenge cred assertion) = none := by
          constructor
          · rintro ⟨req', challenge', assertion', hreq, hch', hdecoded, hguard⟩
            obtain rfl := Option.some.inj hreq
            obtain rfl := Option.some.inj (hassertion.symm.trans hdecoded)
            rw [hch] at hch'
            obtain rfl := Except.ok.inj hch'
            exact hguard
          · exact fun hguard => ⟨req, challenge, assertion, rfl, by rw [hch], hassertion, hguard⟩
        simp only [Option.elim_some, conclude_refused (hverdict _), hfails]
        split_ifs with hguard
        · simp [hguard, unavailable_ne_deny]
        · simp [hguard]

namespace Worked

def ceremony : Ceremony := ⟨ascii "auth.example", ascii "https://auth.example"⟩

def passkey : Credential := ⟨ascii "cred", ascii "t1", ascii "u1", [4, 1, 2], 0⟩

def request : FinishRequest := ⟨ascii "rid", ascii "cred", [], [], []⟩

/-- A challenge is outstanding for the request. -/
def stores : Stores :=
  ⟨(Challenges.new.issue 0 (some (List.replicate 32 1)) (ascii "rid")).2, .new, .new, .new⟩

def readings : Readings := ⟨1, 2, 3, 4, 5, none⟩

def present : Credentials := Credentials.new.add passkey

def rejecting : Verifier := fun _ => some ⟨verdictRejected, ascii "bad_signature", 0⟩

def unreachable : Verifier := fun _ => none

lemma named (req : FinishRequest) (h : some request = some req) :
    present.items.get req.credentialID = some passkey ∧
      Credentials.new.items.get req.credentialID = none := by
  obtain rfl := Option.some.inj h
  exact ⟨Dict.get_set_self _ _ _, Dict.get_empty _⟩

end Worked

theorem finish_hides_worked :
    (Worked.ceremony.finish Worked.rejecting { Worked.stores with credentials := Worked.present }
        Worked.readings (some Worked.request)).1 =
      (Worked.ceremony.finish Worked.rejecting { Worked.stores with credentials := .new }
        Worked.readings (some Worked.request)).1 := by
  refine (finish_hides_iff Worked.named fun a resp h => ?_).mpr ?_
  · obtain rfl := Option.some.inj h
    decide
  · rintro ⟨req, challenge, assertion, -, -, -, h⟩
    cases h

/-- When the Guard fails, the status says that the credential exists. -/
theorem guard_failure_reveals :
    (∀ a resp, Worked.unreachable a = some resp → resp.verdict ≠ verdictVerified) ∧
    (Worked.ceremony.finish Worked.unreachable { Worked.stores with credentials := Worked.present }
      Worked.readings (some Worked.request)).1.status = 503 ∧
    (Worked.ceremony.finish Worked.unreachable { Worked.stores with credentials := .new }
      Worked.readings (some Worked.request)).1.status = 401 :=
  ⟨(fun _ _ h => nomatch h), by decide +kernel, by decide +kernel⟩

end Ceremony
end AiAuth.Login
