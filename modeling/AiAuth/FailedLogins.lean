import AiAuth.LoginRequests
import AiAuth.OpenRedirect

/-!
# Failed attempts

An attempt to log in that the Guard does not verify costs its challenge and nothing else. So the
authorization request is still there for the next attempt, until it expires.
-/
namespace AiAuth.Login
open Library Oidc CryptoService

/-! ## What an operation leaves alone -/

section stores
variable {now : ℤ} {raw : Option Bytes} {id rid : Bytes}

/-- A challenge for another request sweeps out nothing that has not expired. -/
lemma get_begin_other {c : Ceremony} {challenges : Challenges} {e : Challenge}
    (h : challenges.items.get rid = some e) (hexp : now ≤ e.expiresAt) (hne : id ≠ rid) :
    (c.begin challenges now raw id).2.items.get rid = some e := by
  unfold Ceremony.begin
  by_cases hempty : id = []
  · rw [if_pos hempty]
    exact h
  · rw [if_neg hempty]
    cases raw with
    | none => exact h
    | some b =>
      refine (Dict.get_set_ne _ (Ne.symm hne) _).trans ?_
      exact Dict.get_retain.mpr ⟨h, by simpa using hexp⟩

/-- At most the challenge of the request is consumed. -/
lemma get_takeChallenge (now : ℤ) {challenges : Challenges} (body : Option FinishRequest) :
    (Ceremony.takeChallenge challenges now body).2.items.get rid = challenges.items.get rid ∨
      ∃ req, body = some req ∧ req.rid = rid ∧
        (Ceremony.takeChallenge challenges now body).2.items.get rid = none := by
  cases body with
  | none => exact .inl rfl
  | some req =>
    have hget : (Ceremony.takeChallenge challenges now (some req)).2.items.get rid =
        if rid = req.rid then none else challenges.items.get rid := by
      have htaken : (challenges.take now req.rid).2.items.get rid =
          if rid = req.rid then none else challenges.items.get rid := Challenges.get_take rid
      rw [← htaken]
      unfold Ceremony.takeChallenge
      dsimp only
      split
      next htake => rw [htake]
      next htake => rw [htake]
    by_cases hrid : rid = req.rid
    · rw [if_pos hrid] at hget
      exact .inr ⟨req, rfl, hrid.symm, hget⟩
    · exact .inl (hget.trans (if_neg hrid))

lemma takeChallenge_of_get {challenges : Challenges} {req : FinishRequest} {e : Challenge}
    (h : challenges.items.get req.rid = some e) (hexp : now ≤ e.expiresAt) :
    (Ceremony.takeChallenge challenges now (some req)).1 = .ok (req, e.value) := by
  have htake : challenges.take now req.rid =
      (.ok e.value, ⟨challenges.items.remove req.rid⟩) := by
    unfold Challenges.take
    rw [h]
    dsimp only
    rw [if_neg (not_lt.mpr hexp)]
  unfold Ceremony.takeChallenge
  dsimp only
  rw [htake]

lemma takePending_of_get {p : PendingStore} {e : PendingEntry} (h : p.requests.get rid = some e)
    (hexp : now ≤ e.expiresAt) :
    Ceremony.takePending p now rid = (.ok e.req, ⟨p.requests.remove rid⟩) := by
  have htake : p.take now rid = (some e.req, ⟨p.requests.remove rid⟩) := by
    unfold PendingStore.take
    rw [h]
    dsimp only
    rw [if_neg (not_lt.mpr hexp)]
  unfold Ceremony.takePending
  rw [htake]

end stores

/-! ## What waits for the next attempt -/

/-- The authorization request waits under `rid` until the deadline. -/
structure Waiting (rid : Bytes) (authz : AuthzRequest) (deadline : ℤ) (s : State) : Prop where
  stored : s.stores.pending.requests.get rid = some ⟨authz, deadline⟩
  drawn : ∃ raw ∈ s.drawn, Base64.encode raw = rid

/-- No verdict in favour of an assertion for `rid`. -/
def Unverified (rid : Bytes) (e : Served) : Prop :=
  ∀ guard clk req, e.request = .finish guard clk (some req) → req.rid = rid → e.accepted = none

/-- Neither a begin nor a finish request for `rid`. -/
def Elsewhere (rid : Bytes) (e : Served) : Prop :=
  (∀ t raw, e.request ≠ .begin t raw rid) ∧
    ∀ guard clk req, e.request = .finish guard clk (some req) → req.rid ≠ rid

section waiting
variable {w : Server} {s s' : State} {e : Served} {tr : List Served} {rid : Bytes}
  {authz : AuthzRequest} {deadline : ℤ}

lemma clock_le_of_step (h : w.step s e = some s') : s.clock ≤ s'.clock := by
  obtain ⟨hclock, -, -, rfl⟩ := Server.step_cases h
  obtain ⟨request, accepted⟩ := e
  cases request with
  | authorize t raw params => exact (List.pairwise_cons.mp hclock).1 t (by simp [Request.readings])
  | begin t raw rid => exact (List.pairwise_cons.mp hclock).1 t (by simp [Request.readings])
  | finish guard clk body =>
    exact (List.pairwise_cons.mp hclock).1 clk.code (by simp [Request.readings])

lemma Elsewhere.unverified (h : Elsewhere rid e) : Unverified rid e :=
  fun guard clk req hreq hrid => absurd hrid (h.2 guard clk req hreq)

/-- The request a verdict is on is the body of the finish request. -/
lemma body_of_verified {c : Ceremony} {guard : Verifier} {stores : Stores} {clk : Readings}
    {body : Option FinishRequest} {req : FinishRequest} {cred : Credential} {count : ℕ}
    (h : c.verified guard stores clk body = some (req, cred, count)) : body = some req := by
  obtain ⟨challenge, assertion, htake, -, -⟩ := Ceremony.verified_some h
  exact (Ceremony.takeChallenge_ok (Prod.ext htake rfl)).1

lemma Waiting.step (h : Waiting rid authz deadline s) (hs : w.step s e = some s')
    (hfail : Unverified rid e) (hclock : s'.clock ≤ deadline) : Waiting rid authz deadline s' := by
  obtain ⟨-, hfresh, haccepted, rfl⟩ := Server.step_cases hs
  obtain ⟨raw₀, hraw₀, rfl⟩ := h.drawn
  refine ⟨?_, raw₀, List.mem_append_right _ hraw₀, rfl⟩
  obtain ⟨request, accepted⟩ := e
  cases request with
  | authorize t raw params =>
    refine Authorize.get_serveHTTP h.stored hclock fun b hb heq => ?_
    exact (hfresh b hb).2 (Base64.encode_injective heq ▸ hraw₀)
  | begin t raw rid => exact h.stored
  | finish guard clk body =>
    change (w.ceremony.finish guard s.stores clk body).2.pending.requests.get _ = _
    cases hv : w.ceremony.verified guard s.stores clk body with
    | none =>
      rw [Ceremony.finish_unverified hv]
      exact h.stored
    | some v =>
      obtain ⟨req, cred, count⟩ := v
      have hbody := body_of_verified hv
      have hother : Base64.encode raw₀ ≠ req.rid := by
        intro heq
        have hnone := hfail guard clk req (by rw [hbody]) heq.symm
        dsimp only [Server.accepted] at haccepted hnone
        rw [hv, hnone] at haccepted
        cases haccepted
      have hleft : (w.ceremony.finish guard s.stores clk body).2.pending =
          (Ceremony.takePending s.stores.pending clk.pending req.rid).2 := by
        rw [Ceremony.finish_verified hv]
        split
        next hres => rw [hres]
        next hres => rw [hres]
      rw [hleft, Ceremony.takePending_snd, PendingStore.get_take, if_neg hother]
      exact h.stored

/-- An authorization request outlives any number of attempts that are not verified. -/
lemma Waiting.run (h : Waiting rid authz deadline s) (hr : Run (StepOf w.step) s tr s')
    (hfail : ∀ e ∈ tr, Unverified rid e) (hclock : s'.clock ≤ deadline) :
    Waiting rid authz deadline s' := by
  induction hr with
  | nil => exact h
  | snoc _ hs ih =>
    have hbefore := ih (fun e he => hfail e (List.mem_append_left _ he))
      ((clock_le_of_step hs).trans hclock)
    exact hbefore.step hs (hfail _ (List.mem_append_right _ (List.mem_singleton_self _))) hclock

lemma waiting_of_authorize {t : ℤ} {raw : Bytes} {params : Url.Values}
    {accepted : Option (Bytes × ℕ)}
    (hvalid : validateAuthz params w.authorize.clients.lookup = .ok authz)
    (hs : w.step s ⟨.authorize t (some raw) params, accepted⟩ = some s') :
    Waiting (Base64.encode raw) authz (t + pendingTTL) s' := by
  obtain ⟨-, -, -, rfl⟩ := Server.step_cases hs
  refine ⟨?_, raw, by simp [Request.raw], rfl⟩
  change (w.authorize.serveHTTP s.stores.pending t (some raw) params).2.requests.get _ = _
  unfold Authorize.serveHTTP
  rw [hvalid]
  exact Dict.get_set_self _ _ _

/-- A challenge stands while nothing is begun or finished for its request. -/
lemma challenge_step {c : Challenge} (h : s.stores.challenges.items.get rid = some c)
    (hs : w.step s e = some s') (he : Elsewhere rid e) (hclock : s'.clock ≤ c.expiresAt) :
    s'.stores.challenges.items.get rid = some c := by
  obtain ⟨-, -, -, rfl⟩ := Server.step_cases hs
  obtain ⟨request, accepted⟩ := e
  cases request with
  | authorize t raw params => exact h
  | begin t raw id =>
    have hid : id ≠ rid := by
      rintro rfl
      exact he.1 t raw rfl
    exact get_begin_other h hclock hid
  | finish guard clk body =>
    have hleft : (w.ceremony.finish guard s.stores clk body).2.challenges =
        (Ceremony.takeChallenge s.stores.challenges clk.challenge body).2 := by
      cases hv : w.ceremony.verified guard s.stores clk body with
      | none => rw [Ceremony.finish_unverified hv]
      | some v =>
        obtain ⟨req, cred, count⟩ := v
        rw [Ceremony.finish_verified hv]
        split <;> rfl
    change (w.ceremony.finish guard s.stores clk body).2.challenges.items.get rid = some c
    rw [hleft]
    rcases get_takeChallenge clk.challenge body with hsame | ⟨req, hreq, hrid, -⟩
    · exact hsame.trans h
    · exact absurd hrid (he.2 guard clk req (by rw [hreq]))

lemma challenge_run {c : Challenge} (h : s.stores.challenges.items.get rid = some c)
    (hr : Run (StepOf w.step) s tr s') (he : ∀ e ∈ tr, Elsewhere rid e)
    (hclock : s'.clock ≤ c.expiresAt) : s'.stores.challenges.items.get rid = some c := by
  induction hr with
  | nil => exact h
  | snoc _ hs ih =>
    have hbefore := ih (fun e hmem => he e (List.mem_append_left _ hmem))
      ((clock_le_of_step hs).trans hclock)
    have hmem := he _ (List.mem_append_right _ (List.mem_singleton_self _))
    exact challenge_step hbefore hs hmem hclock

end waiting

/-! ## The next attempt -/

/-- A redirect that passed the rails is registered, so it can carry a code. -/
lemma exists_redirectWithCode {a : Authorize} {regs : List (Client × Except RegisterError Unit)}
    {params : Url.Values} {authz : AuthzRequest}
    (hreg : Run (StepOf Registry.step) .new regs a.clients)
    (hvalid : validateAuthz params a.clients.lookup = .ok authz) (code : Bytes) :
    ∃ target, redirectWithCode authz.redirectURI authz.state code = some target := by
  have hregistered : ∃ client, a.clients.lookup (params.get (ascii "client_id")) = some client ∧
      authz.redirectURI ∈ client.redirectURIs := by
    rw [validateAuthz_fields hvalid]
    unfold validateAuthz at hvalid
    split at hvalid
    · cases hvalid
    next client hclient =>
      dsimp only at hvalid
      split_ifs at hvalid with hallows
      exact ⟨client, hclient, by simpa [Client.allowsRedirect] using hallows⟩
  obtain ⟨client, hclient, hmem⟩ := hregistered
  obtain ⟨u, -, -, -, -, hu, -⟩ := accepted_url (stored_redirects hreg hclient _ hmem)
  rw [redirectWithCode, redirectWith, hu]
  exact ⟨_, rfl⟩

/-- An attempt on a live challenge and a live authorization request, which the Guard verifies. -/
lemma finish_succeeds {c : Ceremony} {guard : Verifier} {s : Stores} {clk : Readings}
    {req : FinishRequest} {challenge code target : Bytes} {expiry deadline : ℤ}
    {authz : AuthzRequest} {cred : Credential} {assertion : Assertion} {count : ℕ}
    (hchallenge : s.challenges.items.get req.rid = some ⟨challenge, expiry⟩)
    (hpending : s.pending.requests.get req.rid = some ⟨authz, deadline⟩)
    (hexpiry : clk.challenge ≤ expiry) (hdeadline : clk.pending ≤ deadline)
    (hlookup : Ceremony.lookup s.credentials req = .ok (cred, assertion))
    (hverdict : Ceremony.judge (guard (c.ask challenge cred assertion)) = .ok count)
    (hraw : clk.raw = some code)
    (htarget : redirectWithCode authz.redirectURI authz.state (Base64.encode code) = some target) :
    (c.finish guard s clk (some req)).1 =
        Ceremony.write 200 (.strings [(ascii "redirect_to", target)]) ∧
      (c.finish guard s clk (some req)).2.codes.codes.get (Base64.encode code) =
        some ⟨Ceremony.grant cred authz clk.authTime, clk.code + codeTTL⟩ := by
  have hverified : c.verified guard s clk (some req) = some (req, cred, count) := by
    unfold Ceremony.verified
    rw [takeChallenge_of_get hchallenge hexpiry]
    dsimp only
    rw [hlookup]
    dsimp only
    rw [hverdict]
  have hissue : Ceremony.issueCode s.codes clk.sweep clk.code clk.raw authz
      (Ceremony.grant cred authz clk.authTime) =
      (Ceremony.write 200 (.strings [(ascii "redirect_to", target)]),
        (s.codes.issue clk.sweep clk.code (some code)
          (Ceremony.grant cred authz clk.authTime)).2) := by
    unfold Ceremony.issueCode
    rw [hraw]
    dsimp only [CodeStore.issue]
    rw [htarget]
  rw [Ceremony.finish_verified hverified, takePending_of_get hpending hdeadline]
  dsimp only
  rw [hissue]
  exact ⟨rfl, Dict.get_set_self _ _ _⟩

/-- At `t₀` an authorization request is accepted under `rid`, then attempts for it fail, and at `t₁`
a challenge is issued for it again, after which there is no more to do with it. -/
def Retried (w : Server) (rid challenge : Bytes) (authz : AuthzRequest) (t₀ t₁ : ℤ)
    (tr : List Served) : Prop :=
  ∃ before failures between entropy params,
    tr = before ++ ⟨.authorize t₀ (some entropy) params, none⟩ :: failures ++
      ⟨.begin t₁ (some challenge) rid, none⟩ :: between ∧
    validateAuthz params w.authorize.clients.lookup = .ok authz ∧ Base64.encode entropy = rid ∧
    (∀ e ∈ failures, Unverified rid e) ∧ ∀ e ∈ between, Elsewhere rid e

/-- Both are still there when the answer comes in. -/
lemma live_of_retried {w : Server} {rid challenge : Bytes} {authz : AuthzRequest} {t₀ t₁ clock : ℤ}
    {registered : Credentials} {tr : List Served} {s : State}
    (hr : Run (StepOf w.step) (.start clock registered) tr s)
    (h : Retried w rid challenge authz t₀ t₁ tr) (hexpiry : s.clock ≤ t₁ + challengeTTL)
    (hdeadline : s.clock ≤ t₀ + pendingTTL) :
    s.stores.challenges.items.get rid = some ⟨challenge, t₁ + challengeTTL⟩ ∧
      s.stores.pending.requests.get rid = some ⟨authz, t₀ + pendingTTL⟩ := by
  obtain ⟨before, failures, between, entropy, params, rfl, hvalid, rfl, hfail, helse⟩ := h
  rw [List.append_assoc] at hr
  obtain ⟨s₁, s₂, -, hput, hrest⟩ := hr.at_label before _ rfl
  obtain ⟨s₃, s₄, -, hbegin, hbetween⟩ := hrest.at_label failures between rfl
  constructor
  · refine challenge_run (c := ⟨challenge, t₁ + challengeTTL⟩) ?_ hbetween helse hexpiry
    obtain ⟨-, hfresh, -, -⟩ := Server.step_cases hput
    obtain ⟨-, -, -, rfl⟩ := Server.step_cases hbegin
    have hne : Base64.encode entropy ≠ [] := by
      refine Base64.encode_ne_nil fun hnil => ?_
      have hlen := (hfresh entropy rfl).1
      rw [hnil] at hlen
      cases hlen
    change (w.ceremony.begin _ t₁ (some challenge) (Base64.encode entropy)).2.items.get _ = _
    unfold Ceremony.begin
    rw [if_neg hne]
    exact Dict.get_set_self _ _ _
  · refine ((waiting_of_authorize hvalid hput).run hrest (fun e he => ?_) hdeadline).stored
    rcases List.mem_append.mp he with he | he
    · exact hfail e he
    · rcases List.mem_cons.mp he with rfl | he
      · intro guard clk req h
        cases h
      · exact (helse e he).unverified

/-- An attempt that the Guard does not verify leaves the authorization requests, the counters and
the codes as they are, and takes at most its own challenge. After any number of such attempts for
an authorization request, a new challenge that is answered in time leads to its code. -/
theorem failed_attempts (w : Server) :
    (∀ guard s clk body, w.ceremony.verified guard s clk body = none →
      let s' := (w.ceremony.finish guard s clk body).2
      s'.pending = s.pending ∧ s'.credentials = s.credentials ∧ s'.codes = s.codes ∧
      ∀ rid, s'.challenges.items.get rid = s.challenges.items.get rid ∨
        ∃ req, body = some req ∧ req.rid = rid ∧ s'.challenges.items.get rid = none) ∧
    ∀ regs clock registered tr (s : State) authz challenge t₀ t₁ guard clk req cred assertion count
      code,
      Run (StepOf Registry.step) .new regs w.authorize.clients →
      Run (StepOf w.step) (.start clock registered) tr s →
      Retried w req.rid challenge authz t₀ t₁ tr →
      (s.clock :: (Request.finish guard clk (some req)).readings).Pairwise (· ≤ ·) →
      clk.challenge ≤ t₁ + challengeTTL → clk.pending ≤ t₀ + pendingTTL →
      Ceremony.lookup s.stores.credentials req = .ok (cred, assertion) →
      Ceremony.judge (guard (w.ceremony.ask challenge cred assertion)) = .ok count →
      clk.raw = some code →
      let res := w.ceremony.finish guard s.stores clk (some req)
      ∃ target, redirectWithCode authz.redirectURI authz.state (Base64.encode code) = some target ∧
        res.1 = Ceremony.write 200 (.strings [(ascii "redirect_to", target)]) ∧
        res.2.codes.codes.get (Base64.encode code) =
          some ⟨Ceremony.grant cred authz clk.authTime, clk.code + codeTTL⟩ := by
  constructor
  · intro guard s clk body h
    dsimp only
    rw [Ceremony.finish_unverified h]
    exact ⟨rfl, rfl, rfl, fun rid => get_takeChallenge _ _⟩
  · intro regs clock registered tr s authz challenge t₀ t₁ guard clk req cred assertion count code
      hreg hr hretried hclock hexpiry hdeadline hlookup hverdict hraw
    simp only [Request.readings, List.pairwise_cons, List.mem_cons, forall_eq_or_imp] at hclock
    obtain ⟨⟨htake, hpend, -⟩, -⟩ := hclock
    obtain ⟨hchallenge, hpending⟩ :=
      live_of_retried hr hretried (htake.trans hexpiry) (hpend.trans hdeadline)
    obtain ⟨before, failures, between, entropy, params, -, hvalid, -, -⟩ := hretried
    obtain ⟨target, htarget⟩ := exists_redirectWithCode hreg hvalid (Base64.encode code)
    obtain ⟨hanswer, hcode⟩ :=
      finish_succeeds hchallenge hpending hexpiry hdeadline hlookup hverdict
      hraw htarget
    exact ⟨target, htarget, hanswer, hcode⟩

namespace Worked
open Flow.Worked
open Sessions.Worked (moment)

lemma ok_of_toOption {ε α : Type} {x : Except ε α} {a : α} (h : x.toOption = some a) :
    x = .ok a := by
  cases x with
  | error e => cases h
  | ok b => exact congrArg Except.ok (Option.some.inj h)

lemma clients_registered :
    ∃ regs, Run (StepOf Registry.step) .new regs server.authorize.clients := by
  have hsome :
      (Registry.new.register ⟨ascii "app", [ascii "https://app.example/cb"]⟩).toOption.isSome =
      true := by
    decide +kernel
  cases hres : Registry.new.register ⟨ascii "app", [ascii "https://app.example/cb"]⟩ with
  | error e =>
    rw [hres] at hsome
    cases hsome
  | ok r =>
    have hclients : server.authorize.clients = r := by
      have hdef : server.authorize.clients = Flow.Worked.clients := rfl
      rw [hdef, Flow.Worked.clients, hres]
      rfl
    rw [hclients]
    refine ⟨[(⟨ascii "app", [ascii "https://app.example/cb"]⟩, .ok ())], Run.single ?_⟩
    simp [StepOf, Registry.step, Registry.call, hres]

/-- No body, and then a Guard that cannot be reached. -/
def failures : List Served :=
  [⟨.begin (moment 0) (some (challenge 9)) (rid 2), none⟩,
    ⟨.finish guardian (readings (codeRaw 1)) none, none⟩,
    ⟨.finish (fun _ => none) (readings (codeRaw 2)) (some (body 2)), none⟩]

def retried : List Served :=
  ⟨.authorize (moment 0) (some (pendingRaw 2)) params, none⟩ :: failures ++
    [⟨.begin (moment 0) (some (challenge 2)) (rid 2), none⟩]

/-- The last moment for an answer. -/
def late : ℤ := moment 0 + challengeTTL

def lateReadings : Readings := ⟨late, late, late, late, late, some (codeRaw 3)⟩

end Worked

theorem failed_attempts_worked : ∃ s,
    Run (StepOf Worked.server.step) (.start (Sessions.Worked.moment 0) Flow.Worked.registered)
      Worked.retried s ∧
    ∃ target, redirectWithCode Flow.Worked.authz.redirectURI Flow.Worked.authz.state
        (Base64.encode (Flow.Worked.codeRaw 3)) = some target ∧
      (Worked.server.ceremony.finish Worked.guardian s.stores Worked.lateReadings
        (some (Worked.body 2))).1 =
        Ceremony.write 200 (.strings [(ascii "redirect_to", target)]) := by
  obtain ⟨s, hrun, htest⟩ := Run.exists_of_foldlM_any Worked.server.step (fun s =>
      decide (s.clock = Sessions.Worked.moment 0 ∧
        (Ceremony.lookup s.stores.credentials (Worked.body 2)).toOption =
          some (Flow.Worked.passkey, Worked.assertion 2) ∧
        (Ceremony.judge (Worked.guardian (Worked.server.ceremony.ask (Flow.Worked.challenge 2)
          Flow.Worked.passkey (Worked.assertion 2)))).toOption = some 5 ∧
        (validateAuthz Flow.Worked.params Worked.server.authorize.clients.lookup).toOption =
          some Flow.Worked.authz))
    (.start (Sessions.Worked.moment 0) Flow.Worked.registered) Worked.retried (by decide +kernel)
  obtain ⟨hclock, hlookup, hverdict, hvalid⟩ := of_decide_eq_true htest
  have hretried : Retried Worked.server (Flow.Worked.rid 2) (Flow.Worked.challenge 2)
      Flow.Worked.authz (Sessions.Worked.moment 0) (Sessions.Worked.moment 0) Worked.retried := by
    refine ⟨[], Worked.failures, [], Flow.Worked.pendingRaw 2, Flow.Worked.params, rfl,
      Worked.ok_of_toOption hvalid, rfl,
      fun e he guard clk req _ _ => ?_, by simp⟩
    simp only [Worked.failures, List.mem_cons, List.not_mem_nil, or_false] at he
    rcases he with rfl | rfl | rfl <;> rfl
  obtain ⟨regs, hreg⟩ :
      ∃ regs, Run (StepOf Registry.step) .new regs Worked.server.authorize.clients :=
    Worked.clients_registered
  obtain ⟨target, htarget, hanswer, -⟩ := (failed_attempts Worked.server).2 regs _ _ _ s _ _ _ _
    Worked.guardian Worked.lateReadings (Worked.body 2) _ _ 5 (Flow.Worked.codeRaw 3) hreg hrun
    hretried (by rw [hclock]; decide) (by decide) (by decide) (Worked.ok_of_toOption hlookup)
    (Worked.ok_of_toOption hverdict) rfl
  exact ⟨s, hrun, target, htarget, hanswer⟩

end AiAuth.Login
