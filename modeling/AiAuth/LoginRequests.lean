import AiAuth.CloneDetection
import AiAuth.CredentialPrivacy

/-!
# Logins, one request after the other

Runs in which every request is served before the next one comes in. A verdict that the Guard
gives moves the counter of the credential forward, unless the authenticator keeps none.
-/
namespace AiAuth.Login
open Library Oidc CryptoService

namespace Ceremony

/-- The request, the credential and the counter of a positive verdict. -/
def verified (c : Ceremony) (guard : Verifier) (s : Stores) (clk : Readings)
    (body : Option FinishRequest) : Option (FinishRequest × Credential × ℕ) :=
  match (takeChallenge s.challenges clk.challenge body).1 with
  | .error _ => none
  | .ok (req, challenge) =>
    match lookup s.credentials req with
    | .error _ => none
    | .ok (cred, assertion) =>
      match judge (guard (c.ask challenge cred assertion)) with
      | .error _ => none
      | .ok count => some (req, cred, count)

section finish
variable {c : Ceremony} {guard : Verifier} {s : Stores} {clk : Readings}
  {body : Option FinishRequest}

/-- Without a positive verdict only the challenges are touched. -/
theorem finish_unverified (h : c.verified guard s clk body = none) :
    (c.finish guard s clk body).2 =
      { s with challenges := (takeChallenge s.challenges clk.challenge body).2 } := by
  unfold verified at h
  unfold finish
  cases htake : takeChallenge s.challenges clk.challenge body with
  | mk res challenges =>
    rw [htake] at h
    cases res with
    | error resp => rfl
    | ok taken =>
      obtain ⟨req, challenge⟩ := taken
      dsimp only at h ⊢
      cases hlookup : lookup s.credentials req with
      | error resp => rfl
      | ok found =>
        obtain ⟨cred, assertion⟩ := found
        rw [hlookup] at h
        dsimp only at h ⊢
        cases hjudge : judge (guard (c.ask challenge cred assertion)) with
        | error resp =>
          unfold conclude
          rw [hjudge]
        | ok count =>
          rw [hjudge] at h
          cases h

/-- A positive verdict is on a request that was complete, and on the challenge it took. -/
theorem verified_some {req : FinishRequest} {cred : Credential} {count : ℕ}
    (h : c.verified guard s clk body = some (req, cred, count)) :
    ∃ challenge assertion,
      (takeChallenge s.challenges clk.challenge body).1 = .ok (req, challenge) ∧
      lookup s.credentials req = .ok (cred, assertion) ∧
      judge (guard (c.ask challenge cred assertion)) = .ok count := by
  unfold verified at h
  split at h
  · cases h
  next req' challenge htake =>
    split at h
    · cases h
    next cred' assertion hlookup =>
      split at h
      · cases h
      next count' hjudge =>
        obtain ⟨rfl, rfl, rfl⟩ := Option.some.inj h
        exact ⟨challenge, assertion, htake, hlookup, hjudge⟩

/-- What a positive verdict does to the stores, and the answer it leads to. -/
theorem finish_verified {req : FinishRequest} {cred : Credential} {count : ℕ}
    (h : c.verified guard s clk body = some (req, cred, count)) :
    c.finish guard s clk body =
      match takePending s.pending clk.pending req.rid with
      | (.error resp, pending) => (resp,
        { s with
          challenges := (takeChallenge s.challenges clk.challenge body).2
          credentials := persist s.credentials cred count
          pending := pending })
      | (.ok authz, pending) =>
        let res := issueCode s.codes clk.sweep clk.code clk.raw authz (grant cred authz clk.authTime)
        (res.1,
          { pending := pending
            challenges := (takeChallenge s.challenges clk.challenge body).2
            credentials := persist s.credentials cred count
            codes := res.2 }) := by
  obtain ⟨challenge, assertion, htake, hlookup, hjudge⟩ := verified_some h
  unfold finish
  cases hres : takeChallenge s.challenges clk.challenge body with
  | mk res challenges =>
    rw [hres] at htake
    obtain rfl : res = .ok (req, challenge) := htake
    dsimp only
    rw [hlookup]
    dsimp only [conclude]
    rewrite [hjudge]
    rfl

/-- The counter of a positive verdict, and nothing else, is kept. -/
theorem finish_credentials :
    (c.finish guard s clk body).2.credentials =
      ((c.verified guard s clk body).elim s.credentials fun v => persist s.credentials v.2.1 v.2.2) := by
  cases h : c.verified guard s clk body with
  | none => rw [finish_unverified h, Option.elim_none]
  | some v =>
    obtain ⟨req, cred, count⟩ := v
    rw [finish_verified h, Option.elim_some]
    split <;> rfl

end finish
end Ceremony

/-! ## Runs -/

/-- The authorization endpoint and the two login endpoints. -/
structure Server where
  authorize : Authorize
  ceremony : Ceremony

inductive Request
  | authorize (t : ℤ) (raw : Option Bytes) (params : Url.Values)
  | begin (t : ℤ) (raw : Option Bytes) (rid : Bytes)
  | finish (guard : Verifier) (clk : Readings) (body : Option FinishRequest)

namespace Request

/-- What the clock shows each time it is read. -/
def readings : Request → List ℤ
  | authorize t .. | begin t .. => [t]
  | finish _ clk _ => [clk.challenge, clk.pending, clk.authTime, clk.sweep, clk.code]

def raw : Request → Option Bytes
  | authorize _ raw _ | begin _ raw _ => raw
  | finish _ clk _ => clk.raw

end Request

structure State where
  clock : ℤ
  drawn : List Bytes
  stores : Stores

def State.start (clock : ℤ) (credentials : Credentials) : State :=
  ⟨clock, [], .new, credentials, .new, .new⟩

/-- A request with the credential and the counter that the Guard accepted in it, if it did. -/
structure Served where
  request : Request
  accepted : Option (Bytes × ℕ)

namespace Server

def serve (w : Server) (s : Stores) : Request → Response × Stores
  | .authorize t raw params =>
    let res := w.authorize.serveHTTP s.pending t raw params
    (res.1, { s with pending := res.2 })
  | .begin t raw rid =>
    let res := w.ceremony.begin s.challenges t raw rid
    (res.1, { s with challenges := res.2 })
  | .finish guard clk body => w.ceremony.finish guard s clk body

def accepted (w : Server) (s : Stores) : Request → Option (Bytes × ℕ)
  | .finish guard clk body => (w.ceremony.verified guard s clk body).map fun v => (v.2.1.id, v.2.2)
  | _ => none

/-- Clocks do not run backwards, and random bytes are 32 new ones. -/
def step (w : Server) (s : State) (e : Served) : Option State :=
  if (s.clock :: e.request.readings).Pairwise (· ≤ ·) ∧
      (e.request.raw.all fun b => b.length = 32 && !s.drawn.contains b) ∧
      w.accepted s.stores e.request = e.accepted then
    some
      { clock := e.request.readings.getLastD s.clock
        drawn := e.request.raw.toList ++ s.drawn
        stores := (w.serve s.stores e.request).2 }
  else none

variable {w : Server} {s s' : State} {e : Served}

/-- What a step can do. -/
lemma step_cases (h : w.step s e = some s') :
    (s.clock :: e.request.readings).Pairwise (· ≤ ·) ∧
      (∀ b ∈ e.request.raw, b.length = 32 ∧ b ∉ s.drawn) ∧
      w.accepted s.stores e.request = e.accepted ∧
      s' = ⟨e.request.readings.getLastD s.clock, e.request.raw.toList ++ s.drawn,
        (w.serve s.stores e.request).2⟩ := by
  unfold step at h
  split_ifs at h with hg
  obtain ⟨hclock, hraw, haccepted⟩ := hg
  refine ⟨hclock, ?_, haccepted, (Option.some.inj h).symm⟩
  rw [Option.all_eq_true] at hraw
  exact fun b hb => by simpa using hraw b hb

end Server

/-! ## Counters -/

/-- The stored counter of a credential. -/
def Credentials.count (s : Credentials) (id : Bytes) : ℕ :=
  ((s.items.get id).map Credential.signCount).getD 0

/-- The handler of the Guard, as the ceremony calls it. -/
def verifierOf (P : Webauthn.Platform) (g : Guard) (gs : CryptoService.State) (m : Moment)
    (uuid : Bytes) : Verifier :=
  verifyPasskey (fun req => (g.verifyAssertion P gs m req).1.toOption) uuid

/-- Every answer is the Guard's, in whatever state it is. -/
def FromGuard (P : Webauthn.Platform) (guard : Verifier) : Prop :=
  ∀ ask resp, guard ask = some resp → ∃ g gs m uuid, verifierOf P g gs m uuid ask = some resp

/-- The counters that the Guard accepts for a credential, in their order. -/
def acceptedCount (id : Bytes) (e : Served) : Option ℕ :=
  e.accepted.bind fun a => if a.1 = id then some a.2 else none

section counters
variable {w : Server} {P : Webauthn.Platform} {s s' : State} {e : Served} {tr : List Served}
  {id : Bytes}

lemma count_persist {credentials : Credentials} {cred : Credential} {count : ℕ}
    (hc : credentials.items.get cred.id = some cred) :
    (Ceremony.persist credentials cred count).count id =
      if cred.id = id ∧ count ≠ 0 then count else credentials.count id := by
  by_cases hcount : count = 0
  · rw [if_neg (fun h => h.2 hcount), Ceremony.persist, if_neg (not_not.mpr hcount)]
  · unfold Credentials.count
    rw [persist_get hc hcount]
    by_cases hid : cred.id = id
    · rw [if_pos hid.symm, if_pos ⟨hid, hcount⟩]
      rfl
    · rw [if_neg (Ne.symm hid), if_neg (fun h => hid h.1)]

/-- A counter that is not zero is accepted only if it is above the stored one. -/
lemma verified_count {c : Ceremony} {guard : Verifier} {stores : Stores} {clk : Readings}
    {body : Option FinishRequest} {req : FinishRequest} {cred : Credential} {count : ℕ}
    (hguard : FromGuard P guard)
    (h : c.verified guard stores clk body = some (req, cred, count)) :
    stores.credentials.items.get cred.id = some cred ∧
      (count ≠ 0 → stores.credentials.count cred.id < count) := by
  obtain ⟨challenge, assertion, -, hlookup, hjudge⟩ := Ceremony.verified_some h
  have hget := Ceremony.lookup_ok hlookup
  have hself : stores.credentials.items.get cred.id = some cred := by
    rw [stores.credentials.keyed _ _ hget, hget]
  refine ⟨hself, fun hcount => ?_⟩
  obtain ⟨resp, hanswer, hverdict, rfl⟩ := Ceremony.judge_ok hjudge
  obtain ⟨g, gs, m, uuid, hresp⟩ := hguard _ _ hanswer
  have hhonest : Flow.honest P
      (.verify 0 cred.id uuid (c.ask challenge cred assertion) (some resp)) = true :=
    Flow.honest_of_guard hresp
  have haccepted : Flow.acceptedCount cred.id (.verify 0 cred.id uuid
      (c.ask challenge cred assertion) (some resp)) = some resp.newSignCount := by
    simp [Flow.acceptedCount, hverdict, hcount]
  rw [Credentials.count, hself]
  exact Flow.honest_count hhonest haccepted

/-- The counters that were accepted for a credential: those that are not zero go up, and none of
them is above the stored one. -/
structure Counting (id : Bytes) (tr : List Served) (s : State) : Prop where
  increasing : (tr.filterMap (acceptedCount id)).Pairwise fun n m => n ≠ 0 → m ≠ 0 → n < m
  stored : ∀ n ∈ tr.filterMap (acceptedCount id), n ≤ s.stores.credentials.count id

/-- A request in which no counter of the credential is accepted. -/
lemma Counting.quiet (h : Counting id tr s) (he : acceptedCount id e = none)
    (hcount : s'.stores.credentials.count id = s.stores.credentials.count id) :
    Counting id (tr ++ [e]) s' := by
  have htr : (tr ++ [e]).filterMap (acceptedCount id) = tr.filterMap (acceptedCount id) := by
    simp [he]
  refine ⟨htr ▸ h.increasing, fun n hn => ?_⟩
  rw [htr] at hn
  exact (h.stored n hn).trans hcount.ge

/-- A request in which one is, and is kept unless it is zero. -/
lemma Counting.accept (h : Counting id tr s) {n : ℕ} (he : acceptedCount id e = some n)
    (habove : n ≠ 0 → s.stores.credentials.count id < n)
    (hcount : s'.stores.credentials.count id =
      if n ≠ 0 then n else s.stores.credentials.count id) : Counting id (tr ++ [e]) s' := by
  have htr : (tr ++ [e]).filterMap (acceptedCount id) =
      tr.filterMap (acceptedCount id) ++ [n] := by
    simp [he]
  have hle : s.stores.credentials.count id ≤ s'.stores.credentials.count id := by
    rw [hcount]
    split_ifs with hn
    · exact (habove hn).le
    · exact le_rfl
  constructor
  · rw [htr, List.pairwise_append]
    refine ⟨h.increasing, List.pairwise_singleton _ _, fun m hm k hk _ hne => ?_⟩
    obtain rfl := List.mem_singleton.mp hk
    exact (h.stored m hm).trans_lt (habove hne)
  · intro m hm
    rw [htr, List.mem_append, List.mem_singleton] at hm
    rcases hm with hm | rfl
    · exact (h.stored m hm).trans hle
    · by_cases hzero : m = 0
      · omega
      · rw [hcount, if_pos hzero]

lemma Counting.step (h : Counting id tr s) (hs : w.step s e = some s')
    (hguard : ∀ guard clk body, e.request = .finish guard clk body → FromGuard P guard) :
    Counting id (tr ++ [e]) s' := by
  obtain ⟨-, -, haccepted, rfl⟩ := Server.step_cases hs
  obtain ⟨request, accepted⟩ := e
  cases request with
  | authorize t raw params =>
    obtain rfl : none = accepted := haccepted
    exact h.quiet rfl rfl
  | begin t raw rid =>
    obtain rfl : none = accepted := haccepted
    exact h.quiet rfl rfl
  | finish guard clk body =>
    have hcredentials : (w.ceremony.finish guard s.stores clk body).2.credentials = _ :=
      Ceremony.finish_credentials
    dsimp only [Server.accepted] at haccepted
    cases hv : w.ceremony.verified guard s.stores clk body with
    | none =>
      rw [hv] at haccepted hcredentials
      obtain rfl : none = accepted := haccepted
      exact h.quiet rfl (congrArg (Credentials.count · id) hcredentials)
    | some v =>
      obtain ⟨req, cred, count⟩ := v
      rw [hv] at haccepted hcredentials
      obtain rfl : some (cred.id, count) = accepted := haccepted
      obtain ⟨hget, habove⟩ := verified_count (hguard guard clk body rfl) hv
      have hcount := (congrArg (Credentials.count · id) hcredentials).trans (count_persist hget)
      by_cases hid : cred.id = id
      · subst hid
        refine h.accept (n := count) (by simp [acceptedCount]) habove (hcount.trans ?_)
        simp only [true_and]
      · exact h.quiet (by simp [acceptedCount, hid]) (hcount.trans (if_neg fun hand => hid hand.1))

/-- Over requests served one after the other, the counters that the Guard accepts for a credential
go up, but for those that are zero. -/
theorem counters_increase {s₀ : State} (hr : Run (StepOf w.step) s₀ tr s)
    (hguard : ∀ e ∈ tr, ∀ guard clk body, e.request = .finish guard clk body → FromGuard P guard)
    (id : Bytes) :
    (tr.filterMap (acceptedCount id)).Pairwise fun n m => n ≠ 0 → m ≠ 0 → n < m := by
  have hcounting : Counting id tr s := by
    induction hr with
    | nil => exact ⟨List.Pairwise.nil, by simp⟩
    | snoc _ hstep ih =>
      exact (ih fun e he => hguard e (List.mem_append_left _ he)).step hstep
        (hguard _ (List.mem_append_right _ (List.mem_singleton_self _)))
  exact hcounting.increasing

end counters

namespace Worked
open Flow.Worked
open Sessions.Worked (moment)

/-- An authenticator that reports no counter. -/
def uncounted : Assertion where
  authenticatorData := authData 0
  clientDataJSON := clientData 4
  signature :=
    bigEndian 37 0x30450220671c51c01c6be23b7b5155c9372f304ae7abd6bfe3aabc64bcfd389c7f4dda8702 ++
    bigEndian 34 0x2100cb56eb88b2014c3a3cd5babba90397efff0fd6b0e17aa44a9c6c13dab2857fea

def assertion (n : ℕ) : Assertion := if n = 4 then uncounted else Flow.Worked.assertion n

def clientDigest : Bytes :=
  bigEndian 32 0x7ad4ee29630698b2a6afb057f19d639f2470530b852a555ba628e8b95198ed05

def uncountedDigest : Bytes :=
  bigEndian 32 0xe1a60fcf60fc09f05bdcdfdb753cc35b5a8ce5a5d0667c3c5580f9431dee622e

def uncountedNumbers : ℕ × ℕ :=
  (0x671c51c01c6be23b7b5155c9372f304ae7abd6bfe3aabc64bcfd389c7f4dda87,
    0xcb56eb88b2014c3a3cd5babba90397efff0fd6b0e17aa44a9c6c13dab2857fea)

def platform : Webauthn.Platform where
  toCrypto := Crypto.ofTables
    ((clientData 4, clientDigest) :: (authData 0 ++ clientDigest, uncountedDigest) ::
      digests ++ [1, 2].map fun n => (signed n, signedDigest n))
    ((P256.doubled, uncountedDigest, uncountedNumbers) ::
      [1, 2].map fun n => (P256.doubled, signedDigest n, numbers n))
  parseJson b := ([1, 2, 4].find? fun n => clientData n = b).map client
  keyFromSec1 b := if b = publicKey then some P256.doubled else none
  sigFromDer b := if b = uncounted.signature then some uncountedNumbers else
    ([1, 2].find? fun n => signature n = b).map numbers
  sigFromSlice _ := none

def server : Server := ⟨gateway.authorize, gateway.ceremony⟩

def guard : Guard := .new .new ⟨ascii "idx"⟩ ⟨ascii "kek"⟩

def guardian : Verifier := verifierOf platform guard .start ⟨0, []⟩ uuid

def readings (raw : Bytes) : Readings :=
  ⟨moment 0, moment 0, moment 0, moment 0, moment 0, some raw⟩

def body (n : ℕ) : FinishRequest where
  rid := rid n
  credentialID := ascii "cred"
  authenticatorData := Base64.encode (assertion n).authenticatorData
  clientDataJSON := Base64.encode (assertion n).clientDataJSON
  signature := Base64.encode (assertion n).signature

def login (n count : ℕ) : List Served :=
  [⟨.authorize (moment 0) (some (pendingRaw n)) params, none⟩,
    ⟨.begin (moment 0) (some (challenge n)) (rid n), none⟩,
    ⟨.finish guardian (readings (codeRaw n)) (some (body n)), some (ascii "cred", count)⟩]

/-- Five, none and six. -/
def history : List Served := login 2 5 ++ login 4 0 ++ login 1 6

lemma history_run : ∃ s, Run (StepOf server.step) (.start (moment 0) registered) history s :=
  Run.exists_of_foldlM _ _ _ (by decide +kernel)

lemma history_guard : ∀ e ∈ history, ∀ guard clk body, e.request = .finish guard clk body →
    FromGuard platform guard := by
  intro e he guard clk body h
  have hguardian : guard = guardian := by
    simp only [history, login, List.cons_append, List.nil_append, List.mem_cons,
      List.not_mem_nil, or_false] at he
    rcases he with rfl | rfl | rfl | rfl | rfl | rfl | rfl | rfl | rfl <;> cases h <;> rfl
  subst hguardian
  exact fun ask resp hresp => ⟨_, _, _, _, hresp⟩

end Worked

theorem counters_increase_worked :
    (Worked.history.filterMap (acceptedCount (ascii "cred"))).Pairwise
      fun n m => n ≠ 0 → m ≠ 0 → n < m := by
  obtain ⟨s, hr⟩ := Worked.history_run
  exact counters_increase hr Worked.history_guard (ascii "cred")

/-- After a counter of five, an assertion without a counter is accepted. -/
theorem uncounted_accepted :
    (∃ s, Run (StepOf Worked.server.step)
      (.start (Sessions.Worked.moment 0) Flow.Worked.registered) Worked.history s) ∧
    (∀ e ∈ Worked.history, ∀ guard clk body, e.request = .finish guard clk body →
      FromGuard Worked.platform guard) ∧
    ¬ (Worked.history.filterMap (acceptedCount (ascii "cred"))).Pairwise
      fun n m => n ≠ 0 → n < m := by
  have hcounts : Worked.history.filterMap (acceptedCount (ascii "cred")) = [5, 0, 6] := by
    simp [Worked.history, Worked.login, acceptedCount, List.filterMap_cons]
  refine ⟨Worked.history_run, Worked.history_guard, ?_⟩
  rw [hcounts]
  decide

end AiAuth.Login
