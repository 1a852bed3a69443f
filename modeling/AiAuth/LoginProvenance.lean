import AiAuth.LoginFlow

/-!
# Where a token comes from

What the trace of a run says about each entry of each store and about each request under way:
an access token goes back to one authorization request, one verified assertion and one code.
-/
namespace AiAuth.Flow
open Library Oidc Login CryptoService

variable (w : Gateway) (registered : Credentials)

/-- The event accepts an authorization request under `rid`. -/
def Accepted (rid : Bytes) (authz : AuthzRequest) (e : Event) : Prop :=
  ∃ t raw params, e = .authorize t (some raw) params ∧
    validateAuthz params w.authorize.clients.lookup = .ok authz ∧ Base64.encode raw = rid

/-- A begin request for `rid` that draws a challenge. -/
def Begins (rid : Bytes) (e : Event) : Prop := ∃ t raw, e = .begin t (some raw) rid

def Issues (rid : Bytes) (c : Challenge) (e : Event) : Prop :=
  ∃ t, e = .begin t (some c.value) rid ∧ c.expiresAt = t + challengeTTL

/-- Finish `n` took a challenge that had not expired, and that the latest begin request for
its `rid` had issued. -/
def Took (tr : List Event) (n : ℕ) (req : FinishRequest) (challenge : Bytes) : Prop :=
  ∃ pre post t c, tr = pre ++ .finish n t (some req) (some challenge) :: post ∧
    c.value = challenge ∧ t ≤ c.expiresAt ∧ LastIs (Begins req.rid) (Issues req.rid c) pre

/-- A registered credential, but for its counter. -/
def Registered (id : Bytes) (cred : Credential) : Prop :=
  ∃ c, registered.items.get id = some c ∧ cred = { c with signCount := cred.signCount }

/-- The Guard verified an assertion of the credential that finish `n` names. -/
def Verified (tr : List Event) (n : ℕ) (req : FinishRequest) (cred : Credential) : Prop :=
  ∃ challenge assertion uuid resp, Took tr n req challenge ∧
    .verify n cred.id uuid (w.ceremony.ask challenge cred assertion) (some resp) ∈ tr ∧
    resp.verdict = verdictVerified ∧ Registered registered req.credentialID cred

/-- Finish `n` then took the authorization request that was accepted under its `rid`. -/
def Granted (tr : List Event) (n : ℕ) (req : FinishRequest) (cred : Credential)
    (authz : AuthzRequest) : Prop :=
  Verified w registered tr n req cred ∧ (∃ t, .take n t req.rid (some authz) ∈ tr) ∧
    ∃ e ∈ tr, Accepted w req.rid authz e

/-- Finish `n` was given the code for the grant. -/
def Coded (tr : List Event) (n : ℕ) (code : Bytes) (g : Grant) : Prop :=
  ∃ req cred authz authTime sweepAt t raw,
    .issue n authTime sweepAt t (some raw) g ∈ tr ∧ Base64.encode raw = code ∧
    Granted w registered tr n req cred authz ∧ Ceremony.grant cred authz authTime = g

/-- Token request `k` redeemed the code `code`, and its form fits the grant. -/
def Redeemed (tr : List Event) (k : ℕ) (code : Bytes) (g : Grant) : Prop :=
  ∃ t req f, .redeem k t req (some g) ∈ tr ∧ Token.parse req = .ok f ∧ f.code = code ∧
    g.clientID = f.clientID ∧ g.redirectURI = f.redirectURI ∧
    Base64.encode (w.platform.sha256 f.verifier) = g.codeChallenge ∧
    ∃ n, Coded w registered tr n code g

/-- What the trace says of a finish request at each stage. -/
def FinishOk (tr : List Event) (n : ℕ) : Finish → Prop
  | .taken req challenge => Took tr n req challenge
  | .found req challenge cred _ =>
    Took tr n req challenge ∧ Registered registered req.credentialID cred
  | .verified req cred _ | .counted req cred => Verified w registered tr n req cred
  | .granted cred authz _ => ∃ req, Granted w registered tr n req cred authz
  | .ended => True

def ExchangeOk (tr : List Event) (k : ℕ) : Exchange → Prop
  | .redeemed _ g | .confirmed g _ => ∃ code, Redeemed w registered tr k code g
  | .ended => True

structure Inv (tr : List Event) (s : State) : Prop where
  pending : ∀ rid e, s.pending.requests.get rid = some e → ∃ a ∈ tr, Accepted w rid e.req a
  challenges : ∀ rid c, s.challenges.items.get rid = some c →
    rid ≠ [] ∧ LastIs (Begins rid) (Issues rid c) tr
  credentials : ∀ id c, s.credentials.items.get id = some c → Registered registered id c
  codes : ∀ code e, s.codes.codes.get code = some e → ∃ n, Coded w registered tr n code e.grant
  finishes : ∀ n st, s.finishes.get n = some st → FinishOk w registered tr n st
  exchanges : ∀ k st, s.exchanges.get k = some st → ExchangeOk w registered tr k st

/-! ## What was true of a trace stays true -/

section mono
variable {w : Gateway} {registered : Credentials} {tr : List Event} {n k : ℕ}
  {req : FinishRequest} {cred : Credential} {authz : AuthzRequest} {g : Grant}

lemma Took.append {challenge : Bytes} (h : Took tr n req challenge) (post : List Event) :
    Took (tr ++ post) n req challenge := by
  obtain ⟨pre, rest, t, c, rfl, hc⟩ := h
  exact ⟨pre, rest ++ post, t, c, by simp, hc⟩

lemma Verified.append (h : Verified w registered tr n req cred) (post : List Event) :
    Verified w registered (tr ++ post) n req cred := by
  obtain ⟨challenge, assertion, uuid, resp, htook, hverify, hrest⟩ := h
  exact ⟨challenge, assertion, uuid, resp, htook.append post, List.mem_append_left _ hverify, hrest⟩

lemma Granted.append (h : Granted w registered tr n req cred authz) (post : List Event) :
    Granted w registered (tr ++ post) n req cred authz := by
  obtain ⟨hverified, ⟨t, htake⟩, e, he, haccepted⟩ := h
  exact ⟨hverified.append post, ⟨t, List.mem_append_left _ htake⟩, e, List.mem_append_left _ he,
    haccepted⟩

lemma Coded.append {code : Bytes} (h : Coded w registered tr n code g) (post : List Event) :
    Coded w registered (tr ++ post) n code g := by
  obtain ⟨req, cred, authz, authTime, sweepAt, t, raw, hissue, hcode, hgranted, hg⟩ := h
  exact ⟨req, cred, authz, authTime, sweepAt, t, raw, List.mem_append_left _ hissue, hcode,
    hgranted.append post, hg⟩

lemma Redeemed.append {code : Bytes} (h : Redeemed w registered tr k code g) (post : List Event) :
    Redeemed w registered (tr ++ post) k code g := by
  obtain ⟨t, r, f, hredeem, hparse, hcode, hclient, hredirect, hpkce, n, hcoded⟩ := h
  exact ⟨t, r, f, List.mem_append_left _ hredeem, hparse, hcode, hclient, hredirect, hpkce, n,
    hcoded.append post⟩

lemma FinishOk.append {st : Finish} (h : FinishOk w registered tr n st) (post : List Event) :
    FinishOk w registered (tr ++ post) n st := by
  cases st with
  | taken req challenge => exact Took.append h post
  | found req challenge cred assertion => exact ⟨Took.append h.1 post, h.2⟩
  | verified req cred count => exact Verified.append h post
  | counted req cred => exact Verified.append h post
  | granted cred authz since =>
    obtain ⟨req, hgranted⟩ := h
    exact ⟨req, hgranted.append post⟩
  | ended => trivial

lemma ExchangeOk.append {st : Exchange} (h : ExchangeOk w registered tr k st) (post : List Event) :
    ExchangeOk w registered (tr ++ post) k st := by
  cases st with
  | redeemed req g =>
    obtain ⟨code, hredeemed⟩ := h
    exact ⟨code, hredeemed.append post⟩
  | confirmed g confirm =>
    obtain ⟨code, hredeemed⟩ := h
    exact ⟨code, hredeemed.append post⟩
  | ended => trivial

/-- A label that issues no challenge leaves everything true. -/
lemma Inv.append {s : State} {e : Event} (h : Inv w registered tr s)
    (he : ∀ t raw rid, e ≠ .begin t raw rid) : Inv w registered (tr ++ [e]) s where
  pending rid p hp := by
    obtain ⟨a, ha, hacc⟩ := h.pending rid p hp
    exact ⟨a, List.mem_append_left _ ha, hacc⟩
  challenges rid c hc := by
    refine ⟨(h.challenges rid c hc).1, (h.challenges rid c hc).2.snoc ?_⟩
    rintro ⟨t, raw, hb⟩
    exact he t (some raw) rid hb
  credentials := h.credentials
  codes code c hc := by
    obtain ⟨n, hcoded⟩ := h.codes code c hc
    exact ⟨n, hcoded.append _⟩
  finishes n st hst := (h.finishes n st hst).append _
  exchanges k st hst := (h.exchanges k st hst).append _

end mono

/-! ## One step -/

section step
variable {w : Gateway} {registered : Credentials} {tr : List Event} {s s' : State} {e : Event}

lemma Inv.setFinish {n : ℕ} {st : Finish} (h : Inv w registered tr s)
    (hst : FinishOk w registered tr n st) (m : ℕ) (st' : Finish)
    (hget : (s.finishes.set n st).get m = some st') : FinishOk w registered tr m st' := by
  exact Dict.forall_get_set h.finishes hst m st' hget

lemma Inv.setExchange {k : ℕ} {st : Exchange} (h : Inv w registered tr s)
    (hst : ExchangeOk w registered tr k st) (m : ℕ) (st' : Exchange)
    (hget : (s.exchanges.set k st).get m = some st') : ExchangeOk w registered tr m st' := by
  exact Dict.forall_get_set h.exchanges hst m st' hget

lemma inv_authorize {t : ℤ} {raw : Option Bytes} {params : Url.Values}
    (h : Inv w registered tr s) :
    Inv w registered (tr ++ [.authorize t raw params]) (w.onAuthorize s t raw params) := by
  have hs : Inv w registered (tr ++ [.authorize t raw params]) s := h.append (by simp)
  refine ⟨fun rid e he => ?_, hs.challenges, hs.credentials, hs.codes, hs.finishes, hs.exchanges⟩
  dsimp only [Gateway.onAuthorize, Authorize.serveHTTP] at he
  split at he
  · exact hs.pending rid e he
  next authz hvalid =>
    cases raw with
    | none => exact hs.pending rid e he
    | some raw =>
      rcases PendingStore.get_of_put rfl he with ⟨rfl, hreq⟩ | hold
      · exact ⟨_, List.mem_append_right _ (List.mem_singleton_self _), t, raw, params, rfl,
          hreq ▸ hvalid, rfl⟩
      · exact hs.pending rid e hold

lemma inv_begin {t : ℤ} {raw : Option Bytes} {rid : Bytes} (h : Inv w registered tr s) :
    Inv w registered (tr ++ [.begin t raw rid]) (w.onBegin s t raw rid) := by
  have hold : ∀ rid' c, rid' ≠ rid → s.challenges.items.get rid' = some c →
      rid' ≠ [] ∧ LastIs (Begins rid') (Issues rid' c) (tr ++ [.begin t raw rid]) := by
    intro rid' c hne hc
    refine ⟨(h.challenges rid' c hc).1, (h.challenges rid' c hc).2.snoc ?_⟩
    rintro ⟨_, _, hb⟩
    cases hb
    exact hne rfl
  refine ⟨fun rid' e he => ?_, fun rid' c hc => ?_, h.credentials, fun code e he => ?_,
    fun n st hst => (h.finishes n st hst).append _, fun k st hst => (h.exchanges k st hst).append _⟩
  · obtain ⟨a, ha, hacc⟩ := h.pending rid' e he
    exact ⟨a, List.mem_append_left _ ha, hacc⟩
  · dsimp only [Gateway.onBegin, Ceremony.begin] at hc
    by_cases hempty : rid = []
    · rw [if_pos hempty] at hc
      exact hold rid' c (fun heq => (h.challenges rid' c hc).1 (heq.trans hempty)) hc
    · rw [if_neg hempty] at hc
      cases raw with
      | none =>
        refine ⟨(h.challenges rid' c hc).1, (h.challenges rid' c hc).2.snoc ?_⟩
        rintro ⟨_, _, hb⟩
        cases hb
      | some raw =>
        rcases Challenges.get_of_issue rfl hc with ⟨rfl, rfl⟩ | ⟨hne, hc⟩
        · exact ⟨hempty, .here ⟨t, rfl, rfl⟩⟩
        · exact hold rid' c hne hc
  · obtain ⟨n, hcoded⟩ := h.codes code e he
    exact ⟨n, hcoded.append _⟩

lemma inv_finish {n : ℕ} {t : ℤ} {body : Option FinishRequest} (h : Inv w registered tr s) :
    Inv w registered (tr ++ [.finish n t body
      ((Ceremony.takeChallenge s.challenges t body).1.toOption.map Prod.snd)])
      (Gateway.onFinish s n t body) := by
  have hs := h.append (e := .finish n t body
    ((Ceremony.takeChallenge s.challenges t body).1.toOption.map Prod.snd)) (by simp)
  refine ⟨hs.pending, fun rid c hc => hs.challenges rid c (Ceremony.takeChallenge_get hc),
    hs.credentials, hs.codes, hs.setFinish ?_, hs.exchanges⟩
  cases htake : Ceremony.takeChallenge s.challenges t body with
  | mk res challenges =>
    cases res with
    | error resp => trivial
    | ok taken =>
      obtain ⟨req, challenge⟩ := taken
      obtain ⟨rfl, hok⟩ := Ceremony.takeChallenge_ok htake
      obtain ⟨c, hc, rfl, hexp⟩ := Challenges.take_ok hok
      exact ⟨tr, [], t, c, rfl, rfl, hexp, (h.challenges req.rid c hc).2⟩

lemma inv_lookup {n : ℕ} {req : FinishRequest} {challenge : Bytes} (h : Inv w registered tr s)
    (hn : s.finishes.get n = some (.taken req challenge)) :
    Inv w registered (tr ++ [.lookup n]) (Gateway.onLookup s n req challenge) := by
  have hs : Inv w registered (tr ++ [.lookup n]) s := h.append (by simp)
  refine ⟨hs.pending, hs.challenges, hs.credentials, hs.codes, hs.setFinish ?_, hs.exchanges⟩
  cases hl : Ceremony.lookup s.credentials req with
  | error resp => trivial
  | ok found =>
    exact ⟨hs.finishes n _ hn, hs.credentials _ _ (Ceremony.lookup_ok hl)⟩

lemma inv_verify {n : ℕ} {uuid : Bytes} {answer : Option VerifyAssertionResponse}
    {req : FinishRequest} {challenge : Bytes} {cred : Credential} {assertion : Assertion}
    (h : Inv w registered tr s)
    (hn : s.finishes.get n = some (.found req challenge cred assertion)) :
    Inv w registered
      (tr ++ [.verify n cred.id uuid (w.ceremony.ask challenge cred assertion) answer])
      (Gateway.onVerify s n uuid (w.ceremony.ask challenge cred assertion) answer req cred) := by
  have hs := h.append (e := .verify n cred.id uuid (w.ceremony.ask challenge cred assertion) answer)
    (by simp)
  refine ⟨hs.pending, hs.challenges, hs.credentials, hs.codes, hs.setFinish ?_, hs.exchanges⟩
  cases hj : Ceremony.judge (verifyPasskey (fun _ => answer) uuid
      (w.ceremony.ask challenge cred assertion)) with
  | error resp => trivial
  | ok count =>
    obtain ⟨resp, hanswer, hverdict, -⟩ := Ceremony.judge_ok hj
    obtain rfl := verifyPasskey_some hanswer
    obtain ⟨htook, hreg⟩ := hs.finishes n _ hn
    exact ⟨challenge, assertion, uuid, resp, htook, by simp, hverdict, hreg⟩

lemma inv_update {n : ℕ} {req : FinishRequest} {cred : Credential} {count : ℕ}
    (h : Inv w registered tr s) (hn : s.finishes.get n = some (.verified req cred count)) :
    Inv w registered (tr ++ [.update n]) (Gateway.onUpdate s n req cred count) := by
  have hs : Inv w registered (tr ++ [.update n]) s := h.append (by simp)
  have hverified : Verified w registered (tr ++ [.update n]) n req cred := hs.finishes n _ hn
  refine ⟨hs.pending, hs.challenges, fun id c hc => ?_, hs.codes, hs.setFinish hverified,
    hs.exchanges⟩
  obtain ⟨c', hc', hcount⟩ := get_persist hc
  obtain ⟨c₀, hc₀, heq⟩ := hs.credentials id c' hc'
  exact ⟨c₀, hc₀, by rw [hcount, heq]⟩

lemma inv_take {n : ℕ} {t : ℤ} {req : FinishRequest} {cred : Credential}
    (h : Inv w registered tr s) (hn : s.finishes.get n = some (.counted req cred)) :
    Inv w registered
      (tr ++ [.take n t req.rid (Ceremony.takePending s.pending t req.rid).1.toOption])
      (Gateway.onTake s n t req.rid cred) := by
  have hs := h.append
    (e := .take n t req.rid (Ceremony.takePending s.pending t req.rid).1.toOption) (by simp)
  refine ⟨fun rid e he => ?_, hs.challenges, hs.credentials, hs.codes, hs.setFinish ?_,
    hs.exchanges⟩
  · dsimp only [Gateway.onTake] at he
    rw [Ceremony.takePending_snd, PendingStore.get_take] at he
    split_ifs at he
    exact hs.pending rid e he
  · have hverified := hs.finishes n _ hn
    cases hres : (Ceremony.takePending s.pending t req.rid).1 with
    | error resp => trivial
    | ok authz =>
      have htake : (s.pending.take t req.rid).1 = some authz := by
        rw [← Ceremony.takePending_fst, hres]
        rfl
      obtain ⟨e, he, rfl⟩ := PendingStore.take_ok (Prod.ext htake rfl)
      rw [hres] at hverified hs
      exact ⟨req, hverified, ⟨t, by simp [Except.toOption]⟩, hs.pending req.rid e he⟩

lemma inv_issue {n : ℕ} {authTime sweepAt t : ℤ} {raw : Option Bytes} {cred : Credential}
    {authz : AuthzRequest} {since : ℤ} (h : Inv w registered tr s)
    (hn : s.finishes.get n = some (.granted cred authz since)) :
    Inv w registered
      (tr ++ [.issue n authTime sweepAt t raw (Ceremony.grant cred authz authTime)])
      (Gateway.onIssue s n sweepAt t raw authz (Ceremony.grant cred authz authTime)) := by
  have hs := h.append (e := .issue n authTime sweepAt t raw (Ceremony.grant cred authz authTime))
    (by simp)
  refine ⟨hs.pending, hs.challenges, hs.credentials, fun code e he => ?_, hs.setFinish trivial,
    hs.exchanges⟩
  dsimp only [Gateway.onIssue] at he
  rw [Ceremony.issueCode_snd] at he
  cases raw with
  | none => exact hs.codes code e he
  | some raw =>
    rcases CodeStore.get_of_issue rfl he with ⟨rfl, hg⟩ | hold
    · obtain ⟨req, hgranted⟩ := hs.finishes n _ hn
      exact ⟨n, req, cred, authz, authTime, sweepAt, t, raw, by simp [hg], rfl, hgranted, hg.symm⟩
    · exact hs.codes code e hold

lemma inv_redeem {k : ℕ} {t : ℤ} {req : TokenRequest} (h : Inv w registered tr s) :
    Inv w registered (tr ++ [.redeem k t req (w.redeem s.codes t req).1.toOption])
      (w.onRedeem s k t req) := by
  have hs := h.append (e := .redeem k t req (w.redeem s.codes t req).1.toOption) (by simp)
  refine ⟨hs.pending, hs.challenges, hs.credentials,
    fun code e he => hs.codes code e (Gateway.redeem_get he), hs.finishes, hs.setExchange ?_⟩
  cases hres : (w.redeem s.codes t req).1 with
  | error resp => trivial
  | ok g =>
    obtain ⟨f, e, hf, he, rfl, hclient, hredirect, hpkce⟩ := Gateway.redeem_ok hres
    rw [hres] at hs
    exact ⟨f.code, t, req, f, by simp [Except.toOption], hf, rfl, hclient, hredirect, hpkce,
      hs.codes f.code e he⟩

lemma inv_confirm {k : ℕ} {proofAt t : ℤ} {req : TokenRequest} {g : Grant}
    (h : Inv w registered tr s) (hk : s.exchanges.get k = some (.redeemed req g)) :
    Inv w registered (tr ++ [.confirm k proofAt t]) (w.onConfirm s k proofAt t req g) := by
  have hs : Inv w registered (tr ++ [.confirm k proofAt t]) s := h.append (by simp)
  have hredeemed := hs.exchanges k (.redeemed req g) hk
  refine ⟨hs.pending, hs.challenges, hs.credentials, hs.codes, hs.finishes, hs.setExchange ?_⟩
  cases (w.token.confirm w.platform s.seen proofAt t req).1 with
  | error resp => trivial
  | ok confirm => exact hredeemed

lemma inv_mint {k : ℕ} {t : ℤ} {raw : Option Bytes} {seed : Bytes} {token : Option Bytes}
    (h : Inv w registered tr s) :
    Inv w registered (tr ++ [.mint k t raw seed token]) (Gateway.onMint s k t raw) := by
  have hs : Inv w registered (tr ++ [.mint k t raw seed token]) s := h.append (by simp)
  exact ⟨hs.pending, hs.challenges, hs.credentials, hs.codes, hs.finishes, hs.setExchange trivial⟩

theorem inv_step (h : Inv w registered tr s) (hm : Moves w s e s') :
    Inv w registered (tr ++ [e]) s' := by
  cases hm with
  | authorize _ _ => exact inv_authorize h
  | begin _ _ => exact inv_begin h
  | finish _ _ => exact inv_finish h
  | lookup hn => exact inv_lookup h hn
  | verify hn => exact inv_verify h hn
  | update hn => exact inv_update h hn
  | take _ hn => exact inv_take h hn
  | issue hn _ _ _ _ _ => exact inv_issue h hn
  | redeem _ _ => exact inv_redeem h
  | confirm hk _ _ => exact inv_confirm h hk
  | mint _ _ _ => exact inv_mint h

theorem inv_run {clock : ℤ} (hr : Run (StepOf w.step) (.start clock registered) tr s) :
    Inv w registered tr s := by
  refine hr.invariant (Inv w registered) ?_ fun _ _ _ _ _ hi hs => inv_step hi (moves_of_step hs)
  refine ⟨?_, ?_, fun id c hc => ⟨c, hc, rfl⟩, ?_, ?_, ?_⟩ <;>
    simp [State.start, PendingStore.new, Challenges.new, CodeStore.new]

end step
/-! ## The grant of a token request -/

/-- The grant that a token request has redeemed. -/
def Exchange.grant : Exchange → Option Grant
  | .redeemed _ g | .confirmed g _ => some g
  | .ended => none

/-- Every token request that redeemed a grant is there and holds no other one. -/
def Retained (tr : List Event) (exchanges : Dict ℕ Exchange) : Prop :=
  ∀ k t req g, .redeem k t req (some g) ∈ tr →
    ∃ st, exchanges.get k = some st ∧ ∀ g', st.grant = some g' → g' = g

section retained
variable {w : Gateway} {tr : List Event} {s s' : State} {e : Event} {exchanges : Dict ℕ Exchange}

/-- A token request moves on with the grant it has, or without one. -/
lemma Retained.set (h : Retained tr exchanges) {k : ℕ} {st' : Exchange}
    (hsame : ∀ st, exchanges.get k = some st → ∀ g, st'.grant = some g → st.grant = some g) :
    Retained tr (exchanges.set k st') := by
  intro k' t req g hmem
  obtain ⟨st, hst, hg⟩ := h k' t req g hmem
  rw [Dict.get_set]
  split_ifs with hk
  · subst hk
    exact ⟨st', rfl, fun g' hg' => hg g' (hsame st hst g' hg')⟩
  · exact ⟨st, hst, hg⟩

lemma Retained.quiet (h : Retained tr exchanges)
    (he : ∀ k t req g, e ≠ .redeem k t req (some g)) : Retained (tr ++ [e]) exchanges := by
  intro k t req g hmem
  rcases List.mem_append.mp hmem with hmem | hmem
  · exact h k t req g hmem
  · exact absurd (List.mem_singleton.mp hmem).symm (he k t req g)

lemma Retained.redeem (h : Retained tr s.exchanges) {k : ℕ} {t : ℤ} {req : TokenRequest}
    (hnew : s.exchanges.get k = none) :
    Retained (tr ++ [.redeem k t req (w.redeem s.codes t req).1.toOption])
      (w.onRedeem s k t req).exchanges := by
  intro k' t' req' g hmem
  rcases List.mem_append.mp hmem with hmem | hmem
  · refine h.set (fun st hst => ?_) k' t' req' g hmem
    rw [hnew] at hst
    cases hst
  · have heq := List.mem_singleton.mp hmem
    injection heq with hk ht hreq hg
    subst hk hreq
    refine ⟨_, Dict.get_set_self _ _ _, fun g' hg' => ?_⟩
    cases hres : (w.redeem s.codes t req').1 with
    | error resp =>
      rw [hres] at hg
      cases hg
    | ok g₀ =>
      rw [hres] at hg hg'
      exact (Option.some.inj hg').symm.trans (Option.some.inj hg).symm

lemma Retained.confirm (h : Retained tr s.exchanges) {k : ℕ} {proofAt t : ℤ} {req : TokenRequest}
    {g : Grant} (hk : s.exchanges.get k = some (.redeemed req g)) :
    Retained (tr ++ [.confirm k proofAt t]) (w.onConfirm s k proofAt t req g).exchanges := by
  refine (h.set fun st hst g' hg' => ?_).quiet fun _ _ _ _ => Event.noConfusion
  obtain rfl := Option.some.inj (hk.symm.trans hst)
  cases hres : (w.token.confirm w.platform s.seen proofAt t req).1 with
  | error resp =>
    rw [hres] at hg'
    cases hg'
  | ok confirm =>
    rw [hres] at hg'
    exact hg'

lemma retained_step (h : Retained tr s.exchanges) (hm : Moves w s e s') :
    Retained (tr ++ [e]) s'.exchanges := by
  cases hm with
  | redeem _ hnew => exact h.redeem hnew
  | confirm hk _ _ => exact h.confirm hk
  | mint _ _ _ =>
    refine (h.set fun st _ g hg => ?_).quiet fun _ _ _ _ => Event.noConfusion
    cases hg
  | _ => exact h.quiet fun _ _ _ _ => Event.noConfusion

end retained

/-- A token request keeps the grant it redeemed to its end. -/
theorem grant_of_redeem {w : Gateway} {registered : Credentials} {clock : ℤ} {tr : List Event}
    {s : State} (hr : Run (StepOf w.step) (.start clock registered) tr s) :
    ∀ k t req g, .redeem k t req (some g) ∈ tr →
      ∃ st, s.exchanges.get k = some st ∧ ∀ g', st.grant = some g' → g' = g := by
  have hretained : Retained tr s.exchanges := by
    refine hr.invariant (fun tr s => Retained tr s.exchanges) ?_ fun _ _ _ _ _ h hs =>
      retained_step h (moves_of_step hs)
    intro k t req g hmem
    cases hmem
  exact hretained

/-- The Guard was asked about the subject of a grant that is about to become a token. -/
theorem verified_of_confirmed {w : Gateway} {registered : Credentials} {tr : List Event} {s : State}
    (hi : Inv w registered tr s) {k : ℕ} {g : Grant} {confirm : Option Tokens.Confirm}
    (hk : s.exchanges.get k = some (.confirmed g confirm)) :
    ∃ n id uuid ask resp, .verify n id uuid ask (some resp) ∈ tr ∧
      ask.call.tenantID = g.tenantID ∧ ask.call.subjectID = g.subjectID := by
  obtain ⟨_, _, _, _, _, _, _, _, _, _, _, _, cred, authz, authTime, _, _, _, _, _,
    ⟨⟨challenge, assertion, uuid, resp, _, hverify, _⟩, _⟩, rfl⟩ := hi.exchanges k _ hk
  exact ⟨_, _, _, _, _, hverify, rfl, rfl⟩

end AiAuth.Flow
