import AiAuth.FailedLogins
import AiAuth.PendingCeremonies

/-!
# A login that is seen through

A client goes through all sections of a login, from the authorization request to the token, among
any number of other requests. As long as nobody else names its request id and its code, and
nothing of it expires, it is never stuck and ends with a token.
-/
namespace AiAuth.Flow
open Library Oidc Login CryptoService

/-- The section that comes next. -/
inductive Stage
  | authorize
  | begin
  | finish
  | lookup
  | verify
  | update
  | take
  | issue
  | redeem
  | confirm
  | mint
  | done
  deriving DecidableEq

def Stage.next : Stage → Stage
  | authorize => begin
  | begin => finish
  | finish => lookup
  | lookup => verify
  | verify => update
  | update => take
  | take => issue
  | issue => redeem
  | redeem => confirm
  | confirm => mint
  | mint => done
  | done => done

/-- What a client sends in the course of a login, the numbers of its two last requests, and the
random values that are drawn for it. -/
structure Visit where
  params : Url.Values
  authz : AuthzRequest
  body : FinishRequest
  passkey : Credential
  assertion : Assertion
  exchange : TokenRequest
  form : ExchangeForm
  n : ℕ
  k : ℕ
  pendingRaw : Bytes
  challenge : Bytes
  codeRaw : Bytes
  jtiRaw : Bytes

namespace Visit

def rid (v : Visit) : Bytes := Base64.encode v.pendingRaw

def code (v : Visit) : Bytes := Base64.encode v.codeRaw

/-- The random values that are still to be drawn. -/
def undrawn (v : Visit) : Stage → List Bytes
  | .authorize => [v.pendingRaw, v.challenge, v.codeRaw, v.jtiRaw]
  | .begin => [v.challenge, v.codeRaw, v.jtiRaw]
  | .finish | .lookup | .verify | .update | .take | .issue => [v.codeRaw, v.jtiRaw]
  | .redeem | .confirm | .mint => [v.jtiRaw]
  | .done => []

/-- What is sent fits together and passes the checks that do not depend on the state. -/
structure Sound (v : Visit) (w : Gateway) : Prop where
  valid : validateAuthz v.params w.authorize.clients.lookup = .ok v.authz
  entropy : v.pendingRaw ≠ []
  rid : v.body.rid = v.rid
  passkey : v.passkey.id = v.body.credentialID
  tenant : v.passkey.tenantID ≠ []
  authData : Base64.decode v.body.authenticatorData = some v.assertion.authenticatorData
  clientData : Base64.decode v.body.clientDataJSON = some v.assertion.clientDataJSON
  signature : Base64.decode v.body.signature = some v.assertion.signature
  form : Token.parse v.exchange = .ok v.form
  code : v.form.code = v.code
  client : v.authz.clientID = v.form.clientID
  redirect : v.authz.redirectURI = v.form.redirectURI
  verifier : verifyPKCE w.platform.sha256 v.form.verifier v.authz.codeChallenge = .ok ()
  draws : [v.pendingRaw, v.challenge, v.codeRaw, v.jtiRaw].Nodup

/-- The client's own step in a section, at time `t`. The Guard's answer is positive. -/
def own (v : Visit) (t : ℤ) : Stage → Event → Prop
  | .authorize, .authorize t' raw params => t' = t ∧ raw = some v.pendingRaw ∧ params = v.params
  | .begin, .begin t' raw rid => t' = t ∧ raw = some v.challenge ∧ rid = v.rid
  | .finish, .finish n t' body _ => t' = t ∧ n = v.n ∧ body = some v.body
  | .lookup, .lookup n => n = v.n
  | .verify, .verify n _ _ _ answer =>
    n = v.n ∧ ∃ resp ∈ answer, resp.verdict = verdictVerified
  | .update, .update n => n = v.n
  | .take, .take n t' _ _ => t' = t ∧ n = v.n
  | .issue, .issue n _ _ t' raw _ => t' = t ∧ n = v.n ∧ raw = some v.codeRaw
  | .redeem, .redeem k t' req _ => t' = t ∧ k = v.k ∧ req = v.exchange
  | .confirm, .confirm k _ t' => t' = t ∧ k = v.k
  | .mint, .mint k t' raw _ _ => t' = t ∧ k = v.k ∧ raw = some v.jtiRaw
  | _, _ => False

/-- The random bytes are not the client's. -/
def spares (v : Visit) (raw : Option Bytes) : Prop :=
  ∀ b ∈ raw, b ∉ [v.pendingRaw, v.challenge, v.codeRaw, v.jtiRaw]

/-- A step of somebody else. -/
def foreign (v : Visit) : Event → Prop
  | .authorize _ raw _ => v.spares raw
  | .begin _ raw rid => v.spares raw ∧ rid ≠ v.rid
  | .finish n _ body _ => n ≠ v.n ∧ ∀ req ∈ body, req.rid ≠ v.rid
  | .lookup n | .verify n _ _ _ _ | .update n => n ≠ v.n
  | .take n _ rid _ => n ≠ v.n ∧ rid ≠ v.rid
  | .issue n _ _ _ raw _ => n ≠ v.n ∧ v.spares raw
  | .redeem k _ req _ => k ≠ v.k ∧ ∀ f ∈ (Token.parse req).toOption, f.code ≠ v.code
  | .confirm k _ _ => k ≠ v.k
  | .mint k _ raw _ _ => k ≠ v.k ∧ v.spares raw

/-- Nothing that is stored for the client has expired at `t`. -/
structure InTime (v : Visit) (s : State) (t : ℤ) : Prop where
  pending : ∀ e ∈ s.pending.requests.get v.rid, t ≤ e.expiresAt
  challenge : ∀ c ∈ s.challenges.items.get v.rid, t ≤ c.expiresAt
  code : ∀ e ∈ s.codes.codes.get v.code, t ≤ e.expiresAt

/-- Where a proof of possession is asked for, the one of the exchange is accepted. -/
def proves (v : Visit) (w : Gateway) (s : State) (proofAt t : ℤ) : Prop :=
  (w.token.confirm w.platform s.seen proofAt t v.exchange).1.isOk = true

def proven (v : Visit) (w : Gateway) (s : State) : Event → Prop
  | .confirm _ proofAt t => v.proves w s proofAt t
  | _ => True

/-- A run in which the client takes its turns: the state carries the section that it is at. -/
def Course (v : Visit) (w : Gateway) (x : Stage × State) (e : Event) (y : Stage × State) : Prop :=
  w.step x.2 e = some y.2 ∧ v.InTime x.2 y.2.clock ∧
    ((v.foreign e ∧ y.1 = x.1) ∨
      (v.own y.2.clock x.1 e ∧ v.proven w x.2 e ∧ y.1 = x.1.next))

/-! ## What is there at each stage -/

/-- The registered passkey, but for its counter. -/
def isPasskey (v : Visit) (cred : Credential) : Prop :=
  cred = { v.passkey with signCount := cred.signCount }

def PendingAt (v : Visit) : Stage → PendingStore → Prop
  | .begin, p | .finish, p | .lookup, p | .verify, p | .update, p | .take, p =>
    ∃ d, p.requests.get v.rid = some ⟨v.authz, d⟩
  | _, _ => True

def ChallengeAt (v : Visit) : Stage → Challenges → Prop
  | .finish, c => ∃ d, c.items.get v.rid = some ⟨v.challenge, d⟩
  | _, _ => True

def FinishAt (v : Visit) : Stage → ℤ → Option Finish → Prop
  | .authorize, _, st | .begin, _, st | .finish, _, st => st = none
  | .lookup, _, st => st = some (.taken v.body v.challenge)
  | .verify, _, st =>
    ∃ cred, v.isPasskey cred ∧ st = some (.found v.body v.challenge cred v.assertion)
  | .update, _, st => ∃ cred count, v.isPasskey cred ∧ st = some (.verified v.body cred count)
  | .take, _, st => ∃ cred, v.isPasskey cred ∧ st = some (.counted v.body cred)
  | .issue, clock, st =>
    ∃ cred since, v.isPasskey cred ∧ since ≤ clock ∧ st = some (.granted cred v.authz since)
  | _, _, _ => True

/-- The grant of the login. -/
def isGrant (v : Visit) (g : Grant) : Prop :=
  ∃ cred authTime, v.isPasskey cred ∧ g = Ceremony.grant cred v.authz authTime

def CodeAt (v : Visit) : Stage → CodeStore → Prop
  | .redeem, c => ∃ g d, v.isGrant g ∧ c.codes.get v.code = some ⟨g, d⟩
  | _, _ => True

def ExchangeAt (v : Visit) : Stage → Option Exchange → Prop
  | .confirm, st => ∃ g, v.isGrant g ∧ st = some (.redeemed v.exchange g)
  | .mint, st => ∃ g confirm, v.isGrant g ∧ st = some (.confirmed g confirm)
  | .done, _ => True
  | _, st => st = none

/-- What the client has reached. -/
structure At (v : Visit) (st : Stage) (s : State) : Prop where
  drawn : ∀ b ∈ v.undrawn st, b ∉ s.drawn
  passkey : ∃ cred, s.credentials.items.get v.passkey.id = some cred ∧ v.isPasskey cred
  pending : v.PendingAt st s.pending
  challenge : v.ChallengeAt st s.challenges
  finish : v.FinishAt st s.clock (s.finishes.get v.n)
  code : v.CodeAt st s.codes
  exchange : v.ExchangeAt st (s.exchanges.get v.k)

/-! ## What others leave alone -/

section foreign
variable {v : Visit} {w : Gateway} {s s' : State} {e : Event} {st : Stage} {t : ℤ}

/-- A value of the client's that has not been drawn is not drawn by others. -/
lemma undrawn_foreign (hm : Moves w s e s') (hf : v.foreign e) {b : Bytes}
    (hb : b ∈ [v.pendingRaw, v.challenge, v.codeRaw, v.jtiRaw]) (h : b ∉ s.drawn) :
    b ∉ s'.drawn := by
  have hdraw : ∀ raw, v.spares raw → b ∉ s.draw raw := by
    intro raw hraw hmem
    rcases List.mem_append.mp hmem with hmem | hmem
    · exact hraw b (Option.mem_toList.mp hmem) hb
    · exact h hmem
  cases hm with
  | authorize => exact hdraw _ hf
  | begin => exact hdraw _ hf.1
  | issue => exact hdraw _ hf.2
  | mint => exact hdraw _ hf.2
  | _ => exact h

lemma mem_undrawn {b : Bytes} (h : b ∈ v.undrawn st) :
    b ∈ [v.pendingRaw, v.challenge, v.codeRaw, v.jtiRaw] := by
  cases st <;> simp only [undrawn, List.mem_cons, List.not_mem_nil, or_false] at h ⊢ <;> tauto

/-- A passkey stays, with some counter. -/
lemma passkey_moves (hm : Moves w s e s')
    (h : ∃ cred, s.credentials.items.get v.passkey.id = some cred ∧ v.isPasskey cred) :
    ∃ cred, s'.credentials.items.get v.passkey.id = some cred ∧ v.isPasskey cred := by
  obtain ⟨cred, hget, hcred⟩ := h
  cases hm with
  | @update n req cred' count hn =>
    change ∃ cred, (Ceremony.persist s.credentials cred' count).items.get v.passkey.id = some cred ∧
      v.isPasskey cred
    by_cases hid : v.passkey.id = cred'.id
    · by_cases hcount : count ≠ 0
      · have hpersist := persist_get (hid ▸ hget) hcount v.passkey.id
        rw [if_pos hid] at hpersist
        refine ⟨_, hpersist, ?_⟩
        unfold isPasskey at hcred ⊢
        rw [hcred]
      · exact ⟨cred, by rw [Ceremony.persist, if_neg hcount]; exact hget, hcred⟩
    · refine ⟨cred, ?_, hcred⟩
      unfold Ceremony.persist Credentials.updateSignCount
      split_ifs
      · split
        · exact hget
        · exact (Dict.get_set_ne _ hid _).trans hget
      · exact hget
  | _ => exact ⟨cred, hget, hcred⟩

/-- The stored request of the client stays, as long as it has not expired. -/
lemma pending_foreign (hm : Moves w s e s') (hf : v.foreign e) {r : PendingEntry}
    (h : s.pending.requests.get v.rid = some r) (hexp : s'.clock ≤ r.expiresAt) :
    s'.pending.requests.get v.rid = some r := by
  rcases pending_cases hm with ⟨t, raw, params, rfl, -, hclock, -, hp⟩ |
    ⟨n, t, rid, a, rfl, hp⟩ | ⟨-, -, hp⟩ <;> rw [hp]
  · refine Authorize.get_serveHTTP h (hclock ▸ hexp) fun b hb heq => hf b hb ?_
    rw [Base64.encode_injective heq]
    exact List.mem_cons_self
  · rw [PendingStore.get_take, if_neg (Ne.symm hf.2)]
    exact h
  · exact h

lemma challenge_foreign (hm : Moves w s e s') (hf : v.foreign e) {c : Challenge}
    (h : s.challenges.items.get v.rid = some c) (hexp : s'.clock ≤ c.expiresAt) :
    s'.challenges.items.get v.rid = some c := by
  cases hm with
  | begin => exact get_begin_other h hexp hf.2
  | @finish n t body =>
    rcases get_takeChallenge t body with hsame | ⟨req, hreq, hrid, -⟩
    · exact hsame.trans h
    · exact absurd hrid (hf.2 req hreq)
  | _ => exact h

lemma code_foreign (hm : Moves w s e s') (hf : v.foreign e) {r : CodeEntry}
    (h : s.codes.codes.get v.code = some r) (hexp : s'.clock ≤ r.expiresAt) :
    s'.codes.codes.get v.code = some r := by
  cases hm with
  | @issue n authTime sweepAt t raw cred authz since hn _ _ hclock hsweep =>
    change (Ceremony.issueCode _ _ _ _ _ _).2.codes.get v.code = some r
    rw [Ceremony.issueCode_snd]
    cases raw with
    | none => exact h
    | some b =>
      have hne : v.code ≠ Base64.encode b := by
        intro heq
        refine hf.2 b rfl ?_
        rw [← Base64.encode_injective heq]
        simp
      refine (Dict.get_set_ne _ hne _).trans (Dict.get_retain.mpr ⟨h, ?_⟩)
      simpa using hsweep.trans hexp
  | @redeem k t req =>
    change (w.redeem s.codes t req).2.codes.get v.code = some r
    cases hparse : Token.parse req with
    | error resp =>
      unfold Gateway.redeem
      rw [hparse]
      exact h
    | ok f =>
      rw [Gateway.get_redeem hparse, if_neg (Ne.symm (hf.2 f (by rw [hparse]; rfl)))]
      exact h
  | _ => exact h

lemma finish_foreign (hm : Moves w s e s') (hf : v.foreign e) :
    s'.finishes.get v.n = s.finishes.get v.n := by
  cases hm with
  | finish => exact Dict.get_set_ne _ (Ne.symm hf.1) _
  | lookup => exact Dict.get_set_ne _ (Ne.symm hf) _
  | verify => exact Dict.get_set_ne _ (Ne.symm hf) _
  | update => exact Dict.get_set_ne _ (Ne.symm hf) _
  | take => exact Dict.get_set_ne _ (Ne.symm hf.1) _
  | issue => exact Dict.get_set_ne _ (Ne.symm hf.1) _
  | _ => rfl

lemma exchange_foreign (hm : Moves w s e s') (hf : v.foreign e) :
    s'.exchanges.get v.k = s.exchanges.get v.k := by
  cases hm with
  | redeem => exact Dict.get_set_ne _ (Ne.symm hf.1) _
  | confirm => exact Dict.get_set_ne _ (Ne.symm hf) _
  | mint => exact Dict.get_set_ne _ (Ne.symm hf.1) _
  | _ => rfl

lemma FinishAt.later {clock : ℤ} {o : Option Finish} (h : v.FinishAt st clock o)
    (hle : clock ≤ t) : v.FinishAt st t o := by
  cases st with
  | issue =>
    obtain ⟨cred, since, hcred, hsince, ho⟩ := h
    exact ⟨cred, since, hcred, hsince.trans hle, ho⟩
  | _ => exact h

/-- Other requests leave the client where it is. -/
lemma At.foreign (h : v.At st s) (hm : Moves w s e s') (hf : v.foreign e)
    (ht : v.InTime s s'.clock) : v.At st s' where
  drawn b hb := undrawn_foreign hm hf (mem_undrawn hb) (h.drawn b hb)
  passkey := passkey_moves hm h.passkey
  pending := by
    have hpending : (∃ d, s.pending.requests.get v.rid = some ⟨v.authz, d⟩) →
        ∃ d, s'.pending.requests.get v.rid = some ⟨v.authz, d⟩ := fun ⟨d, hd⟩ =>
      ⟨d, pending_foreign hm hf hd (ht.pending _ hd)⟩
    cases st with
    | begin | finish | lookup | verify | update | take => exact hpending h.pending
    | _ => exact trivial
  challenge := by
    cases st with
    | finish =>
      obtain ⟨d, hd⟩ := h.challenge
      exact ⟨d, challenge_foreign hm hf hd (ht.challenge _ hd)⟩
    | _ => exact trivial
  finish := by
    rw [finish_foreign hm hf]
    exact h.finish.later (clock_le hm)
  code := by
    cases st with
    | redeem =>
      obtain ⟨g, d, hg, hd⟩ := h.code
      exact ⟨g, d, hg, code_foreign hm hf hd (ht.code _ hd)⟩
    | _ => exact trivial
  exchange := by
    rw [exchange_foreign hm hf]
    exact h.exchange

end foreign

/-! ## The client's own steps -/

section own
variable {v : Visit} {w : Gateway} {s s' : State} {e : Event} {st : Stage} {t : ℤ}

/-- A value that is still to be drawn is not the one that was just drawn. -/
lemma undrawn_own (hv : v.Sound w) (hm : Moves w s e s') (ho : v.own t st e)
    (h : ∀ b ∈ v.undrawn st, b ∉ s.drawn) : ∀ b ∈ v.undrawn st.next, b ∉ s'.drawn := by
  have hnodup := hv.draws
  simp only [List.nodup_cons, List.mem_cons, List.not_mem_nil, or_false, not_or, List.nodup_nil,
    not_false_eq_true, and_true] at hnodup
  obtain ⟨⟨hpc, hpk, hpj⟩, ⟨hck, hcj⟩, hkj⟩ := hnodup
  have hdraw : ∀ raw b, b ≠ raw → b ∉ s.drawn → b ∉ s.draw (some raw) := by
    intro raw b hne hb hmem
    rcases List.mem_cons.mp hmem with hmem | hmem
    · exact hne hmem
    · exact hb hmem
  cases hm with
  | authorize =>
    cases st <;> first | exact ho.elim | skip
    obtain ⟨-, rfl, -⟩ := ho
    intro b hb
    refine hdraw _ b ?_ (h b (List.mem_cons_of_mem _ hb))
    simp only [Stage.next, undrawn, List.mem_cons, List.not_mem_nil, or_false] at hb
    rcases hb with rfl | rfl | rfl
    · exact Ne.symm hpc
    · exact Ne.symm hpk
    · exact Ne.symm hpj
  | begin =>
    cases st <;> first | exact ho.elim | skip
    obtain ⟨-, rfl, -⟩ := ho
    intro b hb
    refine hdraw _ b ?_ (h b (List.mem_cons_of_mem _ hb))
    simp only [Stage.next, undrawn, List.mem_cons, List.not_mem_nil, or_false] at hb
    rcases hb with rfl | rfl
    · exact Ne.symm hck
    · exact Ne.symm hcj
  | issue =>
    cases st <;> first | exact ho.elim | skip
    obtain ⟨-, -, rfl⟩ := ho
    intro b hb
    refine hdraw _ b ?_ (h b (List.mem_cons_of_mem _ hb))
    obtain rfl := List.mem_singleton.mp hb
    exact Ne.symm hkj
  | mint =>
    cases st <;> first | exact ho.elim | skip
    exact fun b hb => absurd hb List.not_mem_nil
  | _ => cases st <;> first | exact ho.elim | exact h

/-- A code that is in time and fits the form is redeemed. -/
lemma redeem_of_get (hv : v.Sound w) {codes : CodeStore} {g : Grant} {d : ℤ} (hg : v.isGrant g)
    (h : codes.codes.get v.code = some ⟨g, d⟩) (hexp : t ≤ d) :
    (w.redeem codes t v.exchange).1 = .ok g := by
  obtain ⟨cred, authTime, -, rfl⟩ := hg
  have hredeem : codes.redeem t v.form.code v.form.clientID v.form.redirectURI =
      (.ok (Ceremony.grant cred v.authz authTime), ⟨codes.codes.remove v.form.code⟩) := by
    rw [hv.code, ← hv.client, ← hv.redirect]
    unfold CodeStore.redeem
    rw [h]
    dsimp only
    rw [if_neg (not_lt.mpr hexp), if_neg fun hne => hne rfl, if_neg fun hne => hne rfl]
  have hverifier : verifyPKCE w.platform.sha256 v.form.verifier
      (Ceremony.grant cred v.authz authTime).codeChallenge = .ok () := hv.verifier
  unfold Gateway.redeem Token.redeem
  rw [hv.form]
  dsimp only
  rw [hredeem]
  dsimp only
  rw [hverifier]

/-- The lookup finds the passkey and the assertion of the body. -/
lemma lookup_of_passkey (hv : v.Sound w) {credentials : Credentials} {cred : Credential}
    (h : credentials.items.get v.passkey.id = some cred) :
    Ceremony.lookup credentials v.body = .ok (cred, v.assertion) := by
  unfold Ceremony.lookup Credentials.get
  rw [← hv.passkey, h]
  dsimp only
  rw [hv.authData, hv.clientData, hv.signature]

/-- A positive answer of the Guard is taken as one. -/
lemma judge_of_verdict (hv : v.Sound w) {cred : Credential} (hcred : v.isPasskey cred)
    {challenge uuid : Bytes} {resp : VerifyAssertionResponse}
    (h : resp.verdict = verdictVerified) :
    Ceremony.judge (verifyPasskey (fun _ => some resp) uuid
      (w.ceremony.ask challenge cred v.assertion)) = .ok resp.newSignCount := by
  have htenant : cred.tenantID ≠ [] := by
    rw [hcred]
    exact hv.tenant
  simp [verifyPasskey, Login.Call.context, Ceremony.ask, htenant, Ceremony.judge, h]

lemma exists_ok_of_isOk {ε α : Type} {x : Except ε α} (h : x.isOk = true) : ∃ a, x = .ok a := by
  cases x with
  | error e => cases h
  | ok a => exact ⟨a, rfl⟩

/-- A step of its own takes the client to the next section. -/
lemma At.own (hv : v.Sound w) (h : v.At st s) (hm : Moves w s e s') (ho : v.own t st e)
    (hp : v.proven w s e) (ht : v.InTime s s'.clock) : v.At st.next s' := by
  have hdrawn := undrawn_own hv hm ho h.drawn
  have hpasskey := passkey_moves hm h.passkey
  cases hm with
  | @authorize t' raw params =>
    cases st <;> first | exact ho.elim | skip
    obtain ⟨-, rfl, rfl⟩ := ho
    refine ⟨hdrawn, hpasskey, ⟨t' + pendingTTL, ?_⟩, trivial, h.finish, trivial, h.exchange⟩
    change (w.authorize.serveHTTP _ _ _ _).2.requests.get v.rid = _
    unfold Authorize.serveHTTP
    rw [hv.valid]
    exact Dict.get_set_self _ _ _
  | @begin t' raw rid =>
    cases st <;> first | exact ho.elim | skip
    obtain ⟨-, rfl, rfl⟩ := ho
    refine ⟨hdrawn, hpasskey, h.pending, ⟨t' + challengeTTL, ?_⟩, h.finish, trivial, h.exchange⟩
    change (w.ceremony.begin _ _ _ _).2.items.get v.rid = _
    have hrid : v.rid ≠ [] := Base64.encode_ne_nil hv.entropy
    unfold Ceremony.begin
    rw [if_neg hrid]
    exact Dict.get_set_self _ _ _
  | @finish n t' body hclock hnew =>
    cases st <;> first | exact ho.elim | skip
    obtain ⟨-, rfl, rfl⟩ := ho
    refine ⟨hdrawn, hpasskey, h.pending, trivial, ?_, trivial, h.exchange⟩
    obtain ⟨d, hd⟩ := h.challenge
    have htaken : (Ceremony.takeChallenge s.challenges t' (some v.body)).1 =
        .ok (v.body, v.challenge) :=
      takeChallenge_of_get (hv.rid ▸ hd) (ht.challenge _ hd)
    change (s.finishes.set v.n _).get v.n = _
    rw [Dict.get_set_self, htaken]
    rfl
  | @lookup n req challenge hn =>
    cases st <;> first | exact ho.elim | skip
    obtain rfl := ho
    obtain ⟨rfl, rfl⟩ := Finish.taken.inj (Option.some.inj (hn.symm.trans h.finish))
    refine ⟨hdrawn, hpasskey, h.pending, trivial, ?_, trivial, h.exchange⟩
    obtain ⟨cred, hget, hcred⟩ := h.passkey
    refine ⟨cred, hcred, ?_⟩
    change (s.finishes.set v.n _).get v.n = _
    rw [Dict.get_set_self, lookup_of_passkey hv hget]
    rfl
  | @verify n uuid answer req challenge cred assertion hn =>
    cases st <;> first | exact ho.elim | skip
    obtain ⟨rfl, resp, rfl, hverdict⟩ := ho
    obtain ⟨cred', hcred, hfinish⟩ := h.finish
    obtain ⟨rfl, rfl, rfl, rfl⟩ := Finish.found.inj (Option.some.inj (hn.symm.trans hfinish))
    refine ⟨hdrawn, hpasskey, h.pending, trivial, ⟨cred, resp.newSignCount, hcred, ?_⟩, trivial,
      h.exchange⟩
    change (s.finishes.set v.n _).get v.n = _
    rw [Dict.get_set_self, judge_of_verdict hv hcred hverdict]
    rfl
  | @update n req cred count hn =>
    cases st <;> first | exact ho.elim | skip
    obtain rfl := ho
    obtain ⟨cred', count', hcred, hfinish⟩ := h.finish
    obtain ⟨rfl, rfl, rfl⟩ := Finish.verified.inj (Option.some.inj (hn.symm.trans hfinish))
    exact ⟨hdrawn, hpasskey, h.pending, trivial, ⟨cred, hcred, Dict.get_set_self _ _ _⟩, trivial,
      h.exchange⟩
  | @take n t' req cred hclock hn =>
    cases st <;> first | exact ho.elim | skip
    obtain ⟨-, rfl⟩ := ho
    obtain ⟨cred', hcred, hfinish⟩ := h.finish
    obtain ⟨rfl, rfl⟩ := Finish.counted.inj (Option.some.inj (hn.symm.trans hfinish))
    obtain ⟨d, hd⟩ := h.pending
    have hexp : t' ≤ d := ht.pending _ hd
    refine ⟨hdrawn, hpasskey, trivial, trivial, ⟨cred, t', hcred, le_rfl, ?_⟩, trivial,
      h.exchange⟩
    change (s.finishes.set v.n _).get v.n = _
    rw [Dict.get_set_self, takePending_of_get (hv.rid ▸ hd) hexp]
    rfl
  | @issue n authTime sweepAt t' raw cred authz since hn hsince hauth hclock hsweep hfresh =>
    cases st <;> first | exact ho.elim | skip
    obtain ⟨-, rfl, rfl⟩ := ho
    obtain ⟨cred', since', hcred, -, hfinish⟩ := h.finish
    obtain ⟨rfl, rfl, rfl⟩ := Finish.granted.inj (Option.some.inj (hn.symm.trans hfinish))
    refine ⟨hdrawn, hpasskey, trivial, trivial, trivial,
      ⟨_, t' + codeTTL, ⟨cred, authTime, hcred, rfl⟩, ?_⟩, h.exchange⟩
    change (Ceremony.issueCode _ _ _ _ _ _).2.codes.get v.code = _
    rw [Ceremony.issueCode_snd]
    exact Dict.get_set_self _ _ _
  | @redeem k t' req hclock hnew =>
    cases st <;> first | exact ho.elim | skip
    obtain ⟨-, rfl, rfl⟩ := ho
    obtain ⟨g, d, hg, hd⟩ := h.code
    have hexp : t' ≤ d := ht.code _ hd
    refine ⟨hdrawn, hpasskey, trivial, trivial, trivial, trivial, ⟨g, hg, ?_⟩⟩
    change (s.exchanges.set v.k _).get v.k = _
    rw [Dict.get_set_self, redeem_of_get hv hg hd hexp]
    rfl
  | @confirm k proofAt t' req g hk hproof hclock =>
    cases st <;> first | exact ho.elim | skip
    obtain ⟨-, rfl⟩ := ho
    obtain ⟨g', hg, hexchange⟩ := h.exchange
    obtain ⟨rfl, rfl⟩ := Exchange.redeemed.inj (Option.some.inj (hk.symm.trans hexchange))
    obtain ⟨confirm, hconfirm⟩ := exists_ok_of_isOk hp
    refine ⟨hdrawn, hpasskey, trivial, trivial, trivial, trivial, ⟨g, confirm, hg, ?_⟩⟩
    change (s.exchanges.set v.k _).get v.k = _
    rw [Dict.get_set_self, hconfirm]
    rfl
  | mint =>
    cases st <;> first | exact ho.elim | skip
    exact ⟨hdrawn, hpasskey, trivial, trivial, trivial, trivial, trivial⟩

/-- At every stage but the last the client has a step to take. -/
lemma At.exists_own (h : v.At st s) (hst : st ≠ .done) (hle : s.clock ≤ t)
    (hp : st = .confirm → v.proves w s t t) :
    ∃ e s', w.step s e = some s' ∧ v.own s'.clock st e ∧ v.proven w s e ∧
      (s'.clock = t ∨ s'.clock = s.clock) := by
  have hfresh : ∀ b ∈ v.undrawn st, s.fresh (some b) = true := by
    intro b hb
    simpa [State.fresh] using h.drawn b hb
  cases st with
  | authorize =>
    exact ⟨.authorize t (some v.pendingRaw) v.params, _,
      if_pos ⟨hle, hfresh _ List.mem_cons_self⟩, ⟨rfl, rfl, rfl⟩, trivial, .inl rfl⟩
  | begin =>
    exact ⟨.begin t (some v.challenge) v.rid, _, if_pos ⟨hle, hfresh _ List.mem_cons_self⟩,
      ⟨rfl, rfl, rfl⟩, trivial, .inl rfl⟩
  | finish =>
    exact ⟨.finish v.n t (some v.body) _, _, if_pos ⟨hle, h.finish, rfl⟩, ⟨rfl, rfl, rfl⟩,
      trivial, .inl rfl⟩
  | lookup =>
    have hfinish : s.finishes.get v.n = some (.taken v.body v.challenge) := h.finish
    exact ⟨.lookup v.n, Gateway.onLookup s v.n v.body v.challenge,
      by simp only [Gateway.step, hfinish], rfl, trivial, .inr rfl⟩
  | verify =>
    obtain ⟨cred, -, hfinish⟩ := h.finish
    exact ⟨.verify v.n cred.id [] (w.ceremony.ask v.challenge cred v.assertion)
      (some ⟨verdictVerified, [], 0⟩), Gateway.onVerify s v.n [] (w.ceremony.ask v.challenge cred
        v.assertion) (some ⟨verdictVerified, [], 0⟩) v.body cred,
      by simp only [Gateway.step, hfinish, and_self, if_true], ⟨rfl, _, rfl, rfl⟩, trivial,
      .inr rfl⟩
  | update =>
    obtain ⟨cred, count, -, hfinish⟩ := h.finish
    exact ⟨.update v.n, Gateway.onUpdate s v.n v.body cred count,
      by simp only [Gateway.step, hfinish], rfl, trivial, .inr rfl⟩
  | take =>
    obtain ⟨cred, -, hfinish⟩ := h.finish
    exact ⟨.take v.n t v.body.rid (Ceremony.takePending s.pending t v.body.rid).1.toOption,
      Gateway.onTake s v.n t v.body.rid cred,
      by simp only [Gateway.step, hfinish, hle, and_self, if_true], ⟨rfl, rfl⟩, trivial, .inl rfl⟩
  | issue =>
    obtain ⟨cred, since, -, hsince, hfinish⟩ := h.finish
    exact ⟨.issue v.n t t t (some v.codeRaw) (Ceremony.grant cred v.authz t),
      Gateway.onIssue s v.n t t (some v.codeRaw) v.authz (Ceremony.grant cred v.authz t),
      by simp only [Gateway.step, hfinish, hsince.trans hle, hle, le_refl,
        hfresh _ List.mem_cons_self, and_self, if_true], ⟨rfl, rfl, rfl⟩, trivial, .inl rfl⟩
  | redeem =>
    exact ⟨.redeem v.k t v.exchange _, _, if_pos ⟨hle, h.exchange, rfl⟩, ⟨rfl, rfl, rfl⟩, trivial,
      .inl rfl⟩
  | confirm =>
    obtain ⟨g, -, hexchange⟩ := h.exchange
    exact ⟨.confirm v.k t t, w.onConfirm s v.k t t v.exchange g,
      by simp only [Gateway.step, hexchange, hle, le_refl, and_self, if_true], ⟨rfl, rfl⟩, hp rfl,
      .inl rfl⟩
  | mint =>
    obtain ⟨g, confirm, -, hexchange⟩ := h.exchange
    exact ⟨.mint v.k t (some v.jtiRaw) [] (w.mint t (some v.jtiRaw) [] g confirm),
      Gateway.onMint s v.k t (some v.jtiRaw),
      by simp only [Gateway.step, hexchange, hle, hfresh _ List.mem_cons_self, and_self, if_true],
      ⟨rfl, rfl, rfl⟩, trivial, .inl rfl⟩
  | done => exact absurd rfl hst

end own

/-! ## The whole course -/

/-- The token of the login. -/
def Holds (v : Visit) (w : Gateway) (tr : List Event) : Prop :=
  ∃ t seed token, .mint v.k t (some v.jtiRaw) seed (some token) ∈ tr ∧
    Minted w token v.passkey.subjectID v.passkey.tenantID v.authz.scope

section course
variable {v : Visit} {w : Gateway} {s s' : State} {e : Event} {tr : List Event} {st : Stage} {t : ℤ}

/-- A signer that works signs what is asked for. -/
lemma mint_some (hsign : ∀ digest seed, (w.platform.sign w.token.signer.key digest seed).isSome)
    (raw seed : Bytes) (g : Grant) (confirm : Option Tokens.Confirm) :
    ∃ token, w.mint t (some raw) seed g confirm = some token := by
  have hissue : ∃ token, w.token.signer.issue w.platform.toCrypto w.codec t (some raw) seed
      (w.token.claims g confirm) Oidc.accessTokenTTL = .ok token := by
    unfold Tokens.Signer.issue
    rw [if_neg (by decide)]
    dsimp only [Tokens.Signer.tokenID, Token.claims, Option.map_some]
    rw [if_pos rfl]
    dsimp only
    split
    next hnone => exact absurd hnone (Option.isSome_iff_ne_none.mp (hsign _ _))
    · exact ⟨_, rfl⟩
  obtain ⟨token, htoken⟩ := hissue
  exact ⟨token, by rw [Gateway.mint, Token.mint, htoken]; rfl⟩

/-- The token is minted for the subject of the passkey, with the scope that was asked for. -/
lemma At.holds (hsign : ∀ digest seed, (w.platform.sign w.token.signer.key digest seed).isSome)
    (h : v.At .mint s) (hm : Moves w s e s') (ho : v.own t .mint e) : v.Holds w (tr ++ [e]) := by
  cases hm with
  | @mint k t' raw seed g confirm hk _ _ =>
    obtain ⟨-, rfl, rfl⟩ := ho
    obtain ⟨g', confirm', ⟨cred, authTime, hcred, rfl⟩, hexchange⟩ := h.exchange
    obtain ⟨rfl, rfl⟩ := Exchange.confirmed.inj (Option.some.inj (hk.symm.trans hexchange))
    obtain ⟨token, htoken⟩ := mint_some (t := t') hsign v.jtiRaw seed
      (Ceremony.grant cred v.authz authTime) confirm
    refine ⟨t', seed, token, by simp [htoken], ?_⟩
    have hminted := minted_of_mint htoken
    rw [hcred] at hminted
    exact hminted
  | _ => exact ho.elim

lemma At.course (hv : v.Sound w)
    (hsign : ∀ digest seed, (w.platform.sign w.token.signer.key digest seed).isSome) {s₀ : State}
    (h₀ : v.At .authorize s₀) (hr : Run (v.Course w) (.authorize, s₀) tr (st, s)) :
    v.At st s ∧ (st = .done → v.Holds w tr) := by
  refine hr.invariant (fun tr x => v.At x.1 x.2 ∧ (x.1 = .done → v.Holds w tr))
    ⟨h₀, fun h => by cases h⟩ ?_
  rintro tr ⟨st, s⟩ e ⟨st', s'⟩ - ⟨h, hdone⟩ ⟨hstep, hclock, ⟨hf, rfl⟩ | ⟨ho, hp, rfl⟩⟩
  · refine ⟨h.foreign (moves_of_step hstep) hf hclock, fun heq => ?_⟩
    obtain ⟨t, seed, token, hmem, hminted⟩ := hdone heq
    exact ⟨t, seed, token, List.mem_append_left _ hmem, hminted⟩
  · refine ⟨h.own hv (moves_of_step hstep) ho hp hclock, fun heq => ?_⟩
    cases st with
    | mint => exact h.holds hsign (moves_of_step hstep) ho
    | done => cases e <;> exact ho.elim
    | _ => cases heq

end course

end Visit

/-- A client whose request id and code nobody else names can take its next step whenever nothing
of it has expired, whatever happens in between, and after its last one holds a token. -/
theorem honest_login {w : Gateway} {v : Visit} {registered : Credentials} {clock : ℤ}
    {tr₀ tr : List Event} {s₀ s : State} {st : Stage} {cred : Credential} (hv : v.Sound w)
    (hsign : ∀ digest seed, (w.platform.sign w.token.signer.key digest seed).isSome)
    (hcred : registered.items.get v.passkey.id = some cred) (hpasskey : v.isPasskey cred)
    (hr₀ : Run (StepOf w.step) (.start clock registered) tr₀ s₀)
    (hdrawn : ∀ b ∈ v.undrawn .authorize, b ∉ s₀.drawn)
    (hn : s₀.finishes.get v.n = none) (hk : s₀.exchanges.get v.k = none)
    (hr : Run (v.Course w) (.authorize, s₀) tr (st, s)) :
    (st = .done → v.Holds w tr) ∧
      (st ≠ .done → ∀ t, s.clock ≤ t → v.InTime s t → (st = .confirm → v.proves w s t t) →
        ∃ e s', v.Course w (st, s) e (st.next, s') ∧ v.own s'.clock st e ∧
          (s'.clock = t ∨ s'.clock = s.clock)) := by
  have hpasskey₀ : ∃ cred, s₀.credentials.items.get v.passkey.id = some cred ∧
      v.isPasskey cred := by
    refine hr₀.invariant (fun _ s => ∃ cred, s.credentials.items.get v.passkey.id = some cred ∧
      v.isPasskey cred) ⟨cred, hcred, hpasskey⟩ fun _ _ _ _ _ h hs => ?_
    exact Visit.passkey_moves (moves_of_step hs) h
  obtain ⟨hat, hdone⟩ := Visit.At.course hv hsign
    ⟨hdrawn, hpasskey₀, trivial, trivial, hn, trivial, hk⟩ hr
  refine ⟨hdone, fun hst t hle ht hp => ?_⟩
  obtain ⟨e, s', hstep, ho, hproven, hclock⟩ := hat.exists_own hst hle hp
  have hearlier : s'.clock ≤ t := hclock.elim le_of_eq fun h => h.trans_le hle
  refine ⟨e, s', ⟨hstep, ⟨fun r hr => hearlier.trans (ht.pending r hr),
    fun c hc => hearlier.trans (ht.challenge c hc),
    fun r hr => hearlier.trans (ht.code r hr)⟩, .inr ⟨ho, hproven, rfl⟩⟩, ho, hclock⟩

namespace Visit

instance (v : Visit) (t : ℤ) (st : Stage) (e : Event) : Decidable (v.own t st e) := by
  cases st <;> cases e <;> unfold own <;> infer_instance

instance (v : Visit) (raw : Option Bytes) : Decidable (v.spares raw) :=
  inferInstanceAs (Decidable (∀ b ∈ raw, b ∉ [v.pendingRaw, v.challenge, v.codeRaw, v.jtiRaw]))

instance (v : Visit) (e : Event) : Decidable (v.foreign e) := by
  cases e <;> unfold foreign <;> infer_instance

instance (v : Visit) (w : Gateway) (s : State) (e : Event) : Decidable (v.proven w s e) := by
  cases e <;> unfold proven <;> (try unfold proves) <;> infer_instance

instance (v : Visit) (s : State) (t : ℤ) : Decidable (v.InTime s t) :=
  decidable_of_iff ((∀ e ∈ s.pending.requests.get v.rid, t ≤ e.expiresAt) ∧
    (∀ c ∈ s.challenges.items.get v.rid, t ≤ c.expiresAt) ∧
    ∀ e ∈ s.codes.codes.get v.code, t ≤ e.expiresAt)
    ⟨fun h => ⟨h.1, h.2.1, h.2.2⟩, fun h => ⟨h.pending, h.challenge, h.code⟩⟩

/-- The course as a function. -/
def follow (v : Visit) (w : Gateway) (x : Stage × State) (e : Event) : Option (Stage × State) :=
  (w.step x.2 e).bind fun s =>
    if v.InTime x.2 s.clock then
      if v.foreign e then some (x.1, s)
      else if v.own s.clock x.1 e ∧ v.proven w x.2 e then some (x.1.next, s)
      else none
    else none

lemma course_of_follow {v : Visit} {w : Gateway} {x y : Stage × State} {e : Event}
    (h : v.follow w x e = some y) : v.Course w x e y := by
  obtain ⟨s, hstep, h⟩ := Option.bind_eq_some_iff.mp h
  split_ifs at h with htime hforeign hown
  · obtain rfl := Option.some.inj h
    exact ⟨hstep, htime, .inl ⟨hforeign, rfl⟩⟩
  · obtain rfl := Option.some.inj h
    exact ⟨hstep, htime, .inr ⟨hown.1, hown.2, rfl⟩⟩

end Visit

namespace Worked
open Sessions.Worked (moment)

def visit : Visit where
  params := params
  authz := authz
  body := body 2
  passkey := passkey
  assertion := assertion 2
  exchange := Gateway.Worked.exchange
  form := ⟨Base64.encode Gateway.Worked.codeRaw, ascii "app", ascii "https://app.example/cb",
    Sessions.Worked.codeVerifier⟩
  n := 2
  k := 0
  pendingRaw := pendingRaw 2
  challenge := challenge 2
  codeRaw := Gateway.Worked.codeRaw
  jtiRaw := Sessions.Worked.jtiRaw

/-- The gateway with a signer that answers everything. -/
def signingGateway : Gateway :=
  { gateway with platform := { gateway.platform with
      sign := fun k d seed => (gateway.platform.sign k d seed).or (some (1, 1)) } }

/-- Another client starts a login in the middle of it. -/
def interrupted : List Event :=
  started (moment 0) 2 ++ started (moment 0) 1 ++ accepted 2 4 :: .update 2 ::
    completed (moment 0) 2 Gateway.Worked.codeRaw ++ exchanged (moment 0) ++ [minted]

lemma visit_sound : visit.Sound signingGateway where
  valid := Login.Worked.ok_of_toOption (by decide +kernel)
  entropy := by decide
  rid := rfl
  passkey := rfl
  tenant := by decide
  authData := by decide +kernel
  clientData := by decide +kernel
  signature := by decide +kernel
  form := Login.Worked.ok_of_toOption (by decide +kernel)
  code := rfl
  client := rfl
  redirect := rfl
  verifier := Login.Worked.ok_of_toOption (by decide +kernel)
  draws := by decide +kernel

end Worked

theorem honest_login_worked : Worked.visit.Holds Worked.signingGateway Worked.interrupted := by
  have hrun : (Worked.interrupted.foldlM (Worked.visit.follow Worked.signingGateway)
      (.authorize, .start (Sessions.Worked.moment 0) Worked.registered)).any
        (fun x => x.1 = .done) = true := by
    decide +kernel
  obtain ⟨⟨st, s⟩, hfold, hdone⟩ := (Option.any_eq_true _ _).mp hrun
  obtain rfl : st = .done := of_decide_eq_true hdone
  refine (honest_login Worked.visit_sound (fun digest seed => ?_)
    (show Worked.registered.items.get Worked.visit.passkey.id = some Worked.passkey by
      decide +kernel)
    rfl .nil (by simp [State.start]) rfl rfl
    ((Run.of_foldlM hfold).mono fun _ _ _ h => Visit.course_of_follow h)).1 rfl
  change ((Worked.gateway.platform.sign _ digest seed).or (some (1, 1))).isSome = true
  cases Worked.gateway.platform.sign _ digest seed <;> rfl

end AiAuth.Flow
