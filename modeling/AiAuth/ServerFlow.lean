import AiAuth.Server

/-!
# The HTTP surface and the code flow

A server that takes one request after the other does what the sections of the code flow do, one
after the other. What a request does not come as far as is not in its run.
-/
namespace AiAuth
open Library

/-- The access token that a body hands out. -/
def Response.accessToken (r : Response) : Option Bytes :=
  match r.body with
  | .json doc => (doc.get (ascii "access_token")).bind Json.asStr
  | _ => none

namespace Flow
open Oidc Login CryptoService

/-- The token that a section mints. -/
def Event.token : Event → Option Bytes
  | .mint _ _ _ _ token => token
  | _ => none

/-- The sections are steps wherever their conditions hold. -/
theorem step_of_moves {w : Gateway} {f f' : State} {e : Event} (h : Moves w f e f') :
    w.step f e = some f' := by
  cases h with
  | authorize hclock hfresh => exact if_pos ⟨hclock, hfresh⟩
  | begin hclock hfresh => exact if_pos ⟨hclock, hfresh⟩
  | finish hclock hnew => exact if_pos ⟨hclock, hnew, rfl⟩
  | lookup hn => simp only [Gateway.step, hn]
  | verify hn => simp [Gateway.step, hn]
  | update hn => simp only [Gateway.step, hn]
  | take hclock hn => simp [Gateway.step, hn, hclock]
  | issue hn hsince hauth hclock ht hfresh =>
    simp [Gateway.step, hn, hsince, hauth, hclock, ht, hfresh]
  | redeem hclock hnew => exact if_pos ⟨hclock, hnew, rfl⟩
  | confirm hk hproof hclock => simp [Gateway.step, hk, hproof, hclock]
  | mint hk hclock hfresh => simp [Gateway.step, hk, hclock, hfresh]

end Flow

namespace Server
open Oidc Login CryptoService AiAuth.Flow

/-! ## Requests one after the other -/

structure State where
  clock : ℤ
  drawn : List Bytes
  stores : Stores

def State.start (clock : ℤ) (registered : Credentials) : State := ⟨clock, [], .new registered⟩

/-- A request with what it found outside, and the access token in the answer to it. -/
structure Served where
  request : Request
  surroundings : Surroundings
  token : Option Bytes

namespace Config
variable (cfg : Config)

def readings (e : Served) : List ℤ :=
  (cfg.endpoint e.request).elim [] (Handler.readings e.surroundings)

def raw (e : Served) : Option Bytes := (cfg.endpoint e.request).bind (Handler.raw e.surroundings)

/-- Clocks do not run backwards, and random bytes are new. -/
def step (P : Dpop.Platform) (J : Tokens.Codec) (s : State) (e : Served) : Option State :=
  let res := cfg.serve P J s.stores e.surroundings e.request
  if (s.clock :: cfg.readings e).Pairwise (· ≤ ·) ∧ ((cfg.raw e).all fun b => !s.drawn.contains b) ∧
      res.1.accessToken = e.token then
    some ⟨(cfg.readings e).getLastD s.clock, (cfg.raw e).toList ++ s.drawn, res.2⟩
  else none

/-- The handlers of the code flow, as the configuration puts them together. -/
def gateway (signer : Tokens.Signer) (clients : Registry) (c : Ceremony) (P : Dpop.Platform)
    (J : Tokens.Codec) : Gateway :=
  ⟨⟨clients, cfg.loginURL⟩, c, ⟨signer, cfg.audience, cfg.dpop, cfg.issuer⟩, P, J⟩

end Config

/-! ## One request is a run of sections -/

/-- The stores of the code flow. -/
def loginOf (f : Flow.State) : Login.Stores := ⟨f.challenges, f.credentials, f.pending, f.codes⟩

/-- The requests from `n` on are to come. -/
def Free (f : Flow.State) (n : ℕ) : Prop :=
  ∀ m, n ≤ m → f.finishes.get m = none ∧ f.exchanges.get m = none

/-- The sections have left what the server has left. -/
structure Mirrors (f : Flow.State) (s : State) (n : ℕ) : Prop where
  clock : f.clock ≤ s.clock
  drawn : f.drawn ⊆ s.drawn
  stores : s.stores = ⟨loginOf f, f.seen⟩
  free : Free f n

/-- A run of sections that does to the stores what is to be done, and mints the tokens. -/
def Sections (w : Gateway) (f : Flow.State) (n : ℕ) (s : State) (tokens : List Bytes) : Prop :=
  ∃ es f', Run (StepOf w.step) f es f' ∧ Mirrors f' s n ∧ es.filterMap Event.token = tokens

section sections
variable {w : Gateway} {f f' : Flow.State} {n : ℕ} {s : State} {tokens : List Bytes} {e : Flow.Event}

lemma Sections.done (h : Mirrors f s n) : Sections w f n s [] := ⟨[], f, .nil, h, rfl⟩

/-- A section that mints nothing comes before the others. -/
lemma Sections.cons (hm : Moves w f e f') (h : Sections w f' n s tokens)
    (he : e.token = none := by rfl) : Sections w f n s tokens := by
  obtain ⟨es, f'', hr, hmirrors, rfl⟩ := h
  exact ⟨e :: es, f'', (Run.single (step_of_moves hm)).append hr, hmirrors, by simp [he]⟩

/-- The section that mints is the last one. -/
lemma Sections.mint {token : Bytes} (hm : Moves w f e f') (he : e.token = some token)
    (h : Mirrors f' s n) : Sections w f n s [token] :=
  ⟨[e], f', Run.single (step_of_moves hm), h, by simp [he]⟩

lemma Free.later (h : Free f n) : Free f (n + 1) := fun m hm => h m (by omega)

/-- What becomes of the request in hand does not matter to the ones to come. -/
lemma Free.finish {x : Finish} (h : Free f (n + 1)) (f' : Flow.State)
    (hf : f'.finishes = f.finishes.set n x) (he : f'.exchanges = f.exchanges) :
    Free f' (n + 1) := by
  intro m hm
  rw [hf, he, Dict.get_set_ne _ (by omega)]
  exact h m hm

lemma Free.exchange {x : Exchange} (h : Free f (n + 1)) (f' : Flow.State)
    (hf : f'.finishes = f.finishes) (he : f'.exchanges = f.exchanges.set n x) :
    Free f' (n + 1) := by
  intro m hm
  rw [hf, he, Dict.get_set_ne _ (by omega)]
  exact h m hm

end sections

/-- What the Guard answers to a question is one answer. -/
lemma exists_answer (rpc : VerifyAssertionRequest → Option VerifyAssertionResponse) (uuid : Bytes)
    (a : Ask) : ∃ answer, verifyPasskey (fun _ => answer) uuid a = verifyPasskey rpc uuid a := by
  unfold verifyPasskey
  cases a.call.context purposePasskeyLogin false uuid with
  | none => exact ⟨none, rfl⟩
  | some rc => exact ⟨_, rfl⟩

section finish
variable {w : Gateway} {f : Flow.State} {n : ℕ} {clk : Login.Readings} {drawn : List Bytes}
  {rpc : VerifyAssertionRequest → Option VerifyAssertionResponse} {uuid : Bytes}

/-- With the assertion read, a finish request goes through at most four more sections. -/
lemma sections_conclude {req : FinishRequest} {challenge : Bytes} {cred : Credential}
    {assertion : Assertion} (hn : f.finishes.get n = some (.found req challenge cred assertion))
    (hclock : f.clock ≤ clk.pending) (hauth : clk.pending ≤ clk.authTime)
    (hsweep : clk.authTime ≤ clk.sweep) (hcode : clk.sweep ≤ clk.code)
    (hfresh : f.fresh clk.raw = true) (hdrawn : clk.raw.toList ++ f.drawn ⊆ drawn)
    (hfree : Free f (n + 1)) :
    Sections w f (n + 1) ⟨clk.code, drawn, ⟨(w.ceremony.conclude (verifyPasskey rpc uuid)
      (loginOf f) clk req challenge cred assertion).2, f.seen⟩⟩ [] := by
  have hmore : f.drawn ⊆ drawn := List.Subset.trans (List.subset_append_right _ _) hdrawn
  have hend : clk.pending ≤ clk.code := hauth.trans (hsweep.trans hcode)
  obtain ⟨answer, hanswer⟩ := exists_answer rpc uuid (w.ceremony.ask challenge cred assertion)
  unfold Ceremony.conclude
  refine .cons (@Moves.verify w f n uuid answer req challenge cred assertion hn) ?_
  have hverify : (Gateway.onVerify f n uuid (w.ceremony.ask challenge cred assertion) answer req
      cred).finishes = f.finishes.set n (.afterVerify req cred (Ceremony.judge
        (verifyPasskey rpc uuid (w.ceremony.ask challenge cred assertion)))) := by
    rw [← hanswer]
    rfl
  cases hjudge : Ceremony.judge
      (verifyPasskey rpc uuid (w.ceremony.ask challenge cred assertion)) with
  | error resp => exact .done ⟨hclock.trans hend, hmore, rfl, hfree.finish _ hverify rfl⟩
  | ok count =>
    rw [hjudge] at hverify
    generalize hf₁ : Gateway.onVerify f n uuid (w.ceremony.ask challenge cred assertion) answer req
      cred = f₁ at hverify
    refine .cons (Moves.update (by rw [hverify, Dict.get_set_self]; rfl)) ?_
    subst hf₁
    refine .cons (Moves.take hclock (Dict.get_set_self _ _ _)) ?_
    have hfree₁ := hfree.finish _ hverify rfl
    have hfree₂ := hfree₁.finish (Gateway.onUpdate _ n req cred count) rfl rfl
    have hfree₃ := hfree₂.finish (Gateway.onTake _ n clk.pending req.rid cred) rfl rfl
    dsimp only [loginOf]
    cases htake : Ceremony.takePending f.pending clk.pending req.rid with
    | mk res pending =>
      obtain rfl : pending = (Ceremony.takePending f.pending clk.pending req.rid).2 := by rw [htake]
      cases res with
      | error resp => exact .done ⟨hend, hmore, rfl, hfree₃⟩
      | ok authz =>
        have hn₃ : (Gateway.onTake (Gateway.onUpdate (Gateway.onVerify f n uuid
            (w.ceremony.ask challenge cred assertion) answer req cred) n req cred count) n clk.pending
            req.rid cred).finishes.get n = some (.granted cred authz clk.pending) := by
          refine (Dict.get_set_self _ _ _).trans ?_
          show some (Finish.afterPending cred clk.pending
            (Ceremony.takePending f.pending clk.pending req.rid).1) = _
          rw [htake]
          rfl
        refine .cons (Moves.issue hn₃ hauth hsweep (hauth.trans hsweep) hcode hfresh) ?_
        exact .done ⟨le_rfl, hdrawn, rfl, hfree₃.finish _ rfl rfl⟩

/-- A finish request takes its challenge, looks up its credential and goes on from there. -/
lemma sections_finish {body : Option FinishRequest} (hclock : f.clock ≤ clk.challenge)
    (hpending : clk.challenge ≤ clk.pending) (hauth : clk.pending ≤ clk.authTime)
    (hsweep : clk.authTime ≤ clk.sweep) (hcode : clk.sweep ≤ clk.code)
    (hfresh : f.fresh clk.raw = true) (hdrawn : clk.raw.toList ++ f.drawn ⊆ drawn)
    (hfree : Free f n) :
    Sections w f (n + 1) ⟨clk.code, drawn,
      ⟨(w.ceremony.finish (verifyPasskey rpc uuid) (loginOf f) clk body).2, f.seen⟩⟩ [] := by
  have hmore : f.drawn ⊆ drawn := List.Subset.trans (List.subset_append_right _ _) hdrawn
  have hend : clk.challenge ≤ clk.code := hpending.trans (hauth.trans (hsweep.trans hcode))
  have hfree₁ := hfree.later.finish (Gateway.onFinish f n clk.challenge body) rfl rfl
  refine .cons (@Moves.finish w f n clk.challenge body hclock (hfree n le_rfl).1) ?_
  unfold Ceremony.finish
  dsimp only [loginOf]
  cases htake : Ceremony.takeChallenge f.challenges clk.challenge body with
  | mk res challenges =>
    obtain rfl : challenges = (Ceremony.takeChallenge f.challenges clk.challenge body).2 := by
      rw [htake]
    cases res with
    | error resp => exact .done ⟨hend, hmore, rfl, hfree₁⟩
    | ok taken =>
      obtain ⟨req, challenge⟩ := taken
      have hn₁ : (Gateway.onFinish f n clk.challenge body).finishes.get n =
          some (.taken req challenge) := by
        refine (Dict.get_set_self _ _ _).trans ?_
        rw [htake]
        rfl
      have hfree₂ := hfree₁.finish (Gateway.onLookup _ n req challenge) rfl rfl
      refine .cons (Moves.lookup hn₁) ?_
      dsimp only
      cases hlookup : Ceremony.lookup f.credentials req with
      | error resp => exact .done ⟨hend, hmore, rfl, hfree₂⟩
      | ok found =>
        obtain ⟨cred, assertion⟩ := found
        refine sections_conclude ?_ hpending hauth hsweep hcode hfresh hdrawn hfree₂
        refine (Dict.get_set_self _ _ _).trans ?_
        show some (Finish.afterLookup req challenge (Ceremony.lookup f.credentials req)) = _
        rw [hlookup]
        rfl

end finish

/-! What the token endpoint answers. -/

section answers
variable {resp : Response} {r : TokenRequest}

@[simp] lemma accessToken_fail (status : ℕ) (code desc : Bytes) :
    (Token.fail status code desc).accessToken = none := by
  have herror : (ascii "access_token" == ascii "error") = false := by decide
  have hdesc : (ascii "access_token" == ascii "error_description") = false := by decide
  by_cases hempty : desc = [] <;>
    simp [Response.accessToken, Token.fail, Json.strings, Json.get, List.lookup_cons, herror, hdesc,
      hempty]

@[simp] lemma accessToken_success (token scope : Bytes) :
    (Token.success token scope).accessToken = some token := by
  simp [Response.accessToken, Token.success, Json.get, Json.asStr]

lemma accessToken_parse (h : Token.parse r = .error resp) : resp.accessToken = none := by
  unfold Token.parse at h
  split_ifs at h
  · obtain rfl := Except.error.inj h
    exact accessToken_fail _ _ _
  · split at h
    · obtain rfl := Except.error.inj h
      exact accessToken_fail _ _ _
    · dsimp only at h
      split_ifs at h <;> obtain rfl := Except.error.inj h <;> exact accessToken_fail _ _ _

lemma accessToken_redeem {C : Crypto} {codes : CodeStore} {now : ℤ} {f : ExchangeForm}
    (h : (Token.redeem C codes now f).1 = .error resp) : resp.accessToken = none := by
  unfold Token.redeem at h
  split at h
  · obtain rfl := Except.error.inj h
    exact accessToken_fail _ _ _
  · split at h <;> cases h
    exact accessToken_fail _ _ _

lemma accessToken_confirm {t : Token} {P : Dpop.Platform} {seen : Dpop.ReplayCache}
    {proofAt admitAt : ℤ} (h : (t.confirm P seen proofAt admitAt r).1 = .error resp) :
    resp.accessToken = none := by
  unfold Token.confirm at h
  split_ifs at h
  · obtain rfl := Except.error.inj h
    exact accessToken_fail 400 (ascii "invalid_dpop_proof") (ascii "a DPoP proof is required")
  · split at h <;> cases h
    exact accessToken_fail _ _ _

lemma accessToken_mint {t : Token} {C : Crypto} {J : Tokens.Codec} {now : ℤ} {raw : Option Bytes}
    {seed : Bytes} {g : Grant} {k : Option Tokens.Confirm}
    (h : t.mint C J now raw seed g k = .error resp) : resp.accessToken = none := by
  unfold Token.mint at h
  split at h <;> cases h
  exact accessToken_fail _ _ _

end answers

/-- A token request redeems its code, checks its proof and mints. -/
lemma sections_token {w : Gateway} {f : Flow.State} {n : ℕ} {clk : TokenReadings}
    {raw : Option Bytes} {seed : Bytes} {drawn : List Bytes} {r : TokenRequest}
    (hclock : f.clock ≤ clk.redeem) (hproof : clk.redeem ≤ clk.proof)
    (hcache : clk.proof ≤ clk.cache) (hissue : clk.cache ≤ clk.issue)
    (hfresh : f.fresh raw = true) (hdrawn : raw.toList ++ f.drawn ⊆ drawn) (hfree : Free f n) :
    let res := w.token.serveHTTP w.platform w.codec f.codes f.seen clk raw seed r
    Sections w f (n + 1) ⟨clk.issue, drawn, ⟨{ loginOf f with codes := res.2.1 }, res.2.2⟩⟩
      res.1.accessToken.toList := by
  have hmore : f.drawn ⊆ drawn := List.Subset.trans (List.subset_append_right _ _) hdrawn
  have hend : clk.redeem ≤ clk.issue := hproof.trans (hcache.trans hissue)
  have hfree₁ := hfree.later.exchange (w.onRedeem f n clk.redeem r) rfl rfl
  refine .cons (@Moves.redeem w f n clk.redeem r hclock (hfree n le_rfl).2) ?_
  unfold Token.serveHTTP Token.exchange
  cases hparse : Token.parse r with
  | error resp =>
    have hcodes : w.redeem f.codes clk.redeem r = (.error resp, f.codes) := by
      rw [Gateway.redeem, hparse]
    dsimp only
    rw [accessToken_parse hparse]
    refine .done ⟨hend, hmore, ?_, hfree₁⟩
    simp only [loginOf, Gateway.onRedeem, hcodes]
  | ok form =>
    have hcodes : w.redeem f.codes clk.redeem r =
        Token.redeem w.platform.toCrypto f.codes clk.redeem form := by rw [Gateway.redeem, hparse]
    dsimp only
    cases hredeem : Token.redeem w.platform.toCrypto f.codes clk.redeem form with
    | mk res codes =>
      obtain rfl : codes = (w.redeem f.codes clk.redeem r).2 := by rw [hcodes, hredeem]
      cases res with
      | error resp =>
        dsimp only
        rw [accessToken_redeem (congrArg Prod.fst hredeem)]
        exact .done ⟨hend, hmore, rfl, hfree₁⟩
      | ok g =>
        have hk₁ : (w.onRedeem f n clk.redeem r).exchanges.get n = some (.redeemed r g) := by
          refine (Dict.get_set_self _ _ _).trans ?_
          rw [hcodes, hredeem]
          rfl
        have hfree₂ := hfree₁.exchange
          (w.onConfirm (w.onRedeem f n clk.redeem r) n clk.proof clk.cache r g) rfl rfl
        refine .cons (Moves.confirm hk₁ hcache (hproof.trans hcache)) ?_
        dsimp only
        cases hconfirm : w.token.confirm w.platform f.seen clk.proof clk.cache r with
        | mk res seen =>
          obtain rfl : seen = (w.token.confirm w.platform f.seen clk.proof clk.cache r).2 := by
            rw [hconfirm]
          cases res with
          | error resp =>
            dsimp only
            rw [accessToken_confirm (congrArg Prod.fst hconfirm)]
            exact .done ⟨hissue, hmore, rfl, hfree₂⟩
          | ok confirm =>
            have hk₂ : (w.onConfirm (w.onRedeem f n clk.redeem r) n clk.proof clk.cache r
                g).exchanges.get n = some (.confirmed g confirm) := by
              refine (Dict.get_set_self _ _ _).trans ?_
              show some (Exchange.afterConfirm g
                (w.token.confirm w.platform f.seen clk.proof clk.cache r).1) = _
              rw [hconfirm]
              rfl
            have hmint := @Moves.mint w _ n clk.issue raw seed g confirm hk₂ hissue hfresh
            dsimp only
            cases htoken :
                w.token.mint w.platform.toCrypto w.codec clk.issue raw seed g confirm with
            | error resp =>
              dsimp only
              rw [accessToken_mint htoken]
              refine .cons hmint (.done ⟨le_rfl, hdrawn, rfl, hfree₂.exchange _ rfl rfl⟩) ?_
              rw [Event.token, Gateway.mint, htoken]
              rfl
            | ok token =>
              dsimp only
              rw [accessToken_success]
              refine .mint hmint ?_ ⟨le_rfl, hdrawn, rfl, hfree₂.exchange _ rfl rfl⟩
              rw [Event.token, Gateway.mint, htoken]
              rfl

/-! ## Every request -/

section tokenless
variable {c : Ceremony} {now : ℤ} {raw : Option Bytes}

/-- Only the token endpoint writes the member of a token. -/
@[simp] lemma accessToken_ceremony_fail (status : ℕ) (msg : Bytes) :
    (Ceremony.fail status msg).accessToken = none := by
  have herror : (ascii "access_token" == ascii "error") = false := by decide
  simp [Response.accessToken, Ceremony.fail, Ceremony.write, Json.strings, Json.get,
    List.lookup_cons, herror]

lemma accessToken_begin (challenges : Challenges) (rid : Bytes) :
    (c.begin challenges now raw rid).1.accessToken = none := by
  unfold Ceremony.begin
  split_ifs
  · exact accessToken_ceremony_fail _ _
  · split
    · exact accessToken_ceremony_fail _ _
    · rfl

lemma accessToken_issueCode (codes : CodeStore) (sweepAt : ℤ) (authz : AuthzRequest) (g : Grant) :
    (Ceremony.issueCode codes sweepAt now raw authz g).1.accessToken = none := by
  unfold Ceremony.issueCode
  split
  · exact accessToken_ceremony_fail _ _
  · split
    · exact accessToken_ceremony_fail _ _
    · rfl

lemma accessToken_finish (guard : Verifier) (s : Login.Stores) (clk : Login.Readings)
    (body : Option FinishRequest) : (c.finish guard s clk body).1.accessToken = none := by
  have hdeny : Ceremony.deny.accessToken = none := accessToken_ceremony_fail _ _
  unfold Ceremony.finish
  split
  next htake =>
    unfold Ceremony.takeChallenge at htake
    split at htake
    · cases htake
      exact accessToken_ceremony_fail _ _
    · split at htake <;> cases htake
      exact hdeny
  next htake =>
    dsimp only
    split
    next hlookup =>
      unfold Ceremony.lookup at hlookup
      split at hlookup
      · cases hlookup
        exact hdeny
      · split at hlookup <;> cases hlookup
        exact hdeny
    next hlookup =>
      unfold Ceremony.conclude
      split
      next hjudge =>
        unfold Ceremony.judge at hjudge
        split at hjudge
        · cases hjudge
          exact accessToken_ceremony_fail _ _
        · split_ifs at hjudge
          cases hjudge
          exact hdeny
      next hjudge =>
        dsimp only
        split
        next hpending =>
          unfold Ceremony.takePending at hpending
          split at hpending <;> cases hpending
          exact hdeny
        next hpending => exact accessToken_issueCode _ _ _ _

lemma accessToken_authorize (a : Authorize) (pending : PendingStore) (params : Url.Values) :
    (a.serveHTTP pending now raw params).1.accessToken = none := by
  unfold Authorize.serveHTTP
  split
  next err _ =>
    unfold Authorize.refuse
    by_cases hlocal : err = .unknownClient ∨ err = .redirectMismatch
    · rw [if_pos hlocal]
      rfl
    · rw [if_neg hlocal]
      dsimp only
      split <;> rfl
  · split
    · rfl
    · unfold Authorize.toLogin
      split <;> rfl

end tokenless

section requests
variable {cfg : Config} {P : Dpop.Platform} {J : Tokens.Codec} {s s' : State} {e : Served}
  {x : Surroundings} {r : Request} {h : Handler} {stores : Stores}

lemma serve_endpoint (hend : cfg.endpoint r = some h) :
    (cfg.serve P J stores x r).2 = (h.serve P J stores x r).2 ∧
      (cfg.serve P J stores x r).1.accessToken = (h.serve P J stores x r).1.accessToken := by
  unfold Config.endpoint at hend
  unfold Config.serve Config.serveMux
  split_ifs at hend ⊢
  split at hend
  next hfound =>
    obtain rfl := Option.some.inj hend
    exact ⟨rfl, rfl⟩
  · cases hend

lemma serve_body (hend : cfg.endpoint r = some h) :
    (cfg.serve P J stores x r).1.body = (h.serve P J stores x r).1.body := by
  unfold Config.endpoint at hend
  unfold Config.serve Config.serveMux
  split_ifs at hend ⊢
  split at hend
  next hfound =>
    obtain rfl := Option.some.inj hend
    rfl
  · cases hend

/-- The mux answers for itself without a token, and touches no store. -/
lemma serve_refused (hend : cfg.endpoint r = none) :
    (cfg.serve P J stores x r).2 = stores ∧
      (cfg.serve P J stores x r).1.accessToken = none := by
  unfold Config.endpoint at hend
  unfold Config.serve Config.serveMux
  split_ifs at hend ⊢
  · exact ⟨rfl, rfl⟩
  · split at hend
    · cases hend
    next hfound =>
      cases hf : findHandler cfg.patterns r with
      | handler h => exact absurd hf (hfound h)
      | _ => exact ⟨rfl, rfl⟩

lemma mem_of_findPattern {ps : List Pattern} {method path : Bytes} {p : Pattern}
    (hp : findPattern ps method path = some p) : p ∈ ps ∧ p.fits path = true := by
  unfold findPattern at hp
  rcases Option.or_eq_some_iff.mp hp with hp | ⟨-, hp⟩
  · have hfits := List.find?_some hp
    rw [Bool.and_eq_true] at hfits
    exact ⟨List.mem_of_find?_eq_some hp, hfits.2⟩
  · split_ifs at hp
    have hfits := List.find?_some hp
    rw [Bool.and_eq_true] at hfits
    exact ⟨List.mem_of_find?_eq_some hp, hfits.2⟩

/-- A request is served by a handler whose path is the one it asks for. -/
lemma mem_patterns (hend : cfg.endpoint r = some h) :
    ∃ p ∈ cfg.patterns, p.handler = h ∧ p.fits r.url.escapedPath = true := by
  unfold Config.endpoint at hend
  split_ifs at hend
  split at hend
  next hfound =>
    obtain rfl := Option.some.inj hend
    unfold findHandler at hfound
    dsimp only at hfound
    split_ifs at hfound with hconnect hclean hclean <;> split at hfound
    next p hp =>
      obtain ⟨hmem, hfits⟩ := mem_of_findPattern hp
      exact ⟨p, hmem, Found.handler.inj hfound, hfits⟩
    next => split at hfound <;> cases hfound
    next p hp =>
      obtain ⟨hmem, hfits⟩ := mem_of_findPattern hp
      rw [not_not.mp fun hne => hclean ⟨hconnect, hne⟩] at hfits
      exact ⟨p, hmem, Found.handler.inj hfound, hfits⟩
    next => split at hfound <;> cases hfound
  · cases hend

/-- The handler is the one of the gateway. -/
def Handler.Of (w : Gateway) : Handler → Prop
  | .authorize a => a = w.authorize
  | .token t => t = w.token
  | .begin c | .finish c => c = w.ceremony
  | _ => True

/-- The mux serves the gateway's handlers. -/
lemma endpoint_of {signer : Tokens.Signer} {clients : Registry} {c : Ceremony}
    (hsigner : cfg.signer = some signer) (hclients : cfg.clients = some clients)
    (hlogin : ∀ c' ∈ cfg.login, c' = c) (hend : cfg.endpoint r = some h) :
    h.Of (cfg.gateway signer clients c P J) := by
  obtain ⟨p, hp, rfl, -⟩ := mem_patterns hend
  cases hc : cfg.login with
  | none =>
    simp only [Config.patterns, hsigner, hclients, Config.flow, hc, List.append_nil] at hp
    fin_cases hp <;> trivial
  | some c' =>
    obtain rfl := hlogin c' hc
    simp only [Config.patterns, hsigner, hclients, Config.flow, hc] at hp
    fin_cases hp <;> trivial

/-- The endpoints that are not part of the flow hand out no token. -/
lemma accessToken_published (method contentType : Bytes) {doc : Json}
    (hdoc : doc.get (ascii "access_token") = none) :
    (published method contentType doc).accessToken = none := by
  unfold published
  split_ifs
  · rfl
  · rw [Response.accessToken]
    simp only [hdoc, Option.bind_none]

lemma accessToken_readyz (version : Bytes) (guard : Bool) (probe : Option Bytes) :
    (readyz version guard probe).accessToken = none := by
  unfold readyz
  split_ifs
  · rfl
  · split <;> rfl

/-- A request that an endpoint serves is a run of sections. -/
lemma sections_serve {w : Gateway} {f : Flow.State} {n : ℕ} {clock : ℤ} {drawn : List Bytes}
    (hof : h.Of w) (hfree : Free f n) (hle : f.clock ≤ clock)
    (hclock : (clock :: h.readings x).Pairwise (· ≤ ·)) (hfresh : f.fresh (h.raw x) = true)
    (hdrawn : f.drawn ⊆ drawn) :
    let res := h.serve w.platform w.codec ⟨loginOf f, f.seen⟩ x r
    Sections w f (n + 1) ⟨(h.readings x).getLastD clock, (h.raw x).toList ++ drawn, res.2⟩
      res.1.accessToken.toList := by
  have hmore : (h.raw x).toList ++ f.drawn ⊆ (h.raw x).toList ++ drawn :=
    fun b hb => (List.mem_append.mp hb).elim (List.mem_append_left _)
      fun hb => List.mem_append_right _ (hdrawn hb)
  cases h with
  | healthz version => exact .done ⟨hle, hdrawn, rfl, hfree.later⟩
  | readyz version guard =>
    dsimp only [Handler.serve]
    rw [accessToken_readyz]
    exact .done ⟨hle, hdrawn, rfl, hfree.later⟩
  | authorize a =>
    obtain rfl := hof
    dsimp only [Handler.serve]
    rw [accessToken_authorize]
    have hnow : f.clock ≤ x.now := hle.trans ((List.pairwise_cons.mp hclock).1 _ List.mem_cons_self)
    refine .cons (@Moves.authorize w f x.now x.raw (Url.parseQuery r.url.rawQuery) hnow hfresh) ?_
    exact .done ⟨le_rfl, hmore, rfl, hfree.later⟩
  | token t =>
    obtain rfl := hof
    obtain ⟨hredeem, hproof, hcache, hissue⟩ : clock ≤ x.exchange.redeem ∧
        x.exchange.redeem ≤ x.exchange.proof ∧ x.exchange.proof ≤ x.exchange.cache ∧
        x.exchange.cache ≤ x.exchange.issue := by
      simpa [Handler.readings] using hclock.isChain
    exact sections_token (hle.trans hredeem) hproof hcache hissue hfresh hmore hfree
  | discovery doc =>
    dsimp only [Handler.serve]
    rw [accessToken_published _ _ rfl]
    exact .done ⟨hle, hdrawn, rfl, hfree.later⟩
  | jwks keys =>
    dsimp only [Handler.serve]
    rw [accessToken_published _ _ rfl]
    exact .done ⟨hle, hdrawn, rfl, hfree.later⟩
  | begin c =>
    obtain rfl := hof
    dsimp only [Handler.serve]
    rw [accessToken_begin]
    have hnow : f.clock ≤ x.now :=
      hle.trans ((List.pairwise_cons.mp hclock).1 _ List.mem_cons_self)
    refine .cons (@Moves.begin w f x.now x.raw
      ((Url.parseQuery r.url.rawQuery).get (ascii "rid")) hnow hfresh) ?_
    exact .done ⟨le_rfl, hmore, rfl, hfree.later⟩
  | finish c =>
    obtain rfl := hof
    dsimp only [Handler.serve]
    rw [accessToken_finish]
    obtain ⟨hchallenge, hpending, hauth, hsweep, hcode⟩ : clock ≤ x.finish.challenge ∧
        x.finish.challenge ≤ x.finish.pending ∧ x.finish.pending ≤ x.finish.authTime ∧
        x.finish.authTime ≤ x.finish.sweep ∧ x.finish.sweep ≤ x.finish.code := by
      simpa [Handler.readings] using hclock.isChain
    exact sections_finish (hle.trans hchallenge) hpending hauth hsweep hcode hfresh hmore hfree

/-- Whatever is requested, and of whatever endpoint. -/
lemma sections_step {w : Gateway} {f : Flow.State} {n : ℕ} (hP : w.platform = P) (hJ : w.codec = J)
    (hof : ∀ h, cfg.endpoint e.request = some h → h.Of w) (hm : Mirrors f s n)
    (hs : cfg.step P J s e = some s') : Sections w f (n + 1) s' e.token.toList := by
  subst hP hJ
  unfold Config.step at hs
  dsimp only at hs
  split_ifs at hs with hg
  obtain ⟨hclock, hfresh, hanswer⟩ := hg
  obtain rfl := Option.some.inj hs
  rw [← hanswer]
  unfold Config.readings at hclock ⊢
  unfold Config.raw at hfresh ⊢
  cases hend : cfg.endpoint e.request with
  | none =>
    obtain ⟨hstores, hnone⟩ := @serve_refused cfg w.platform w.codec e.surroundings _ s.stores hend
    rw [hstores, hnone]
    exact .done ⟨hm.clock, hm.drawn, hm.stores, hm.free.later⟩
  | some h =>
    obtain ⟨hstores, htoken⟩ :=
      @serve_endpoint cfg w.platform w.codec e.surroundings _ _ s.stores hend
    rw [hend] at hclock hfresh
    rw [hstores, htoken, hm.stores]
    refine sections_serve (hof h hend) hm.free hm.clock hclock ?_ hm.drawn
    rw [Flow.State.fresh]
    rw [Option.elim_some] at hclock
    cases hraw : h.raw e.surroundings with
    | none => rfl
    | some b =>
      have hnew : b ∉ s.drawn := by simpa [hraw] using hfresh
      simpa using fun hb => hnew (hm.drawn hb)

end requests

/-- The server does what the sections do: whatever is requested of it, in whatever order, there is
a run of sections that ends with the same stores and mints the tokens that the answers hand out. -/
theorem serves_flow {cfg : Config} {P : Dpop.Platform} {J : Tokens.Codec} {signer : Tokens.Signer}
    {clients : Registry} {c : Ceremony} {registered : Credentials} {clock : ℤ} {tr : List Served}
    {s : State} (hsigner : cfg.signer = some signer) (hclients : cfg.clients = some clients)
    (hlogin : ∀ c' ∈ cfg.login, c' = c)
    (hr : Run (StepOf (cfg.step P J)) (.start clock registered) tr s) :
    ∃ es f, Run (StepOf (cfg.gateway signer clients c P J).step) (.start clock registered) es f ∧
      s.stores = ⟨loginOf f, f.seen⟩ ∧
      es.filterMap Event.token = tr.filterMap Served.token := by
  have hstart : Mirrors (.start clock registered) (.start clock registered) 0 :=
    ⟨le_rfl, List.Subset.refl _, rfl, fun m _ => ⟨Dict.get_empty _, Dict.get_empty _⟩⟩
  obtain ⟨es, f, hrun, ⟨n, hm⟩, htokens⟩ :
      ∃ es f, Run (StepOf (cfg.gateway signer clients c P J).step) (.start clock registered) es f ∧
        (∃ n, Mirrors f s n) ∧ es.filterMap Event.token = tr.filterMap Served.token := by
    refine hr.refines (fun s f => ∃ n, Mirrors f s n) Served.token Event.token ⟨0, hstart⟩ ?_
    rintro s e s' f ⟨n, hm⟩ hs
    obtain ⟨es, f', hrun, hm', htokens⟩ :=
      sections_step rfl rfl (fun h => endpoint_of hsigner hclients hlogin) hm hs
    exact ⟨es, f', hrun, ⟨_, hm'⟩, htokens⟩
  exact ⟨es, f, hrun, hm.stores, htokens⟩

/-! ## Worked example -/

namespace Worked
open Flow.Worked
open Sessions.Worked (moment)

def config : Config where
  version := ascii "dev"
  guard := false
  issuer := gateway.token.issuer
  audience := gateway.token.audience
  signer := some gateway.token.signer
  signingKeys := [(ascii "k1", gateway.token.signer.key)]
  clients := some clients
  loginURL := gateway.authorize.loginURL
  login := some gateway.ceremony
  dpop := gateway.token.dpop

/-- Everything happens at one instant, and the Guard accepts. -/
def surroundings (raw : Option Bytes) : Surroundings where
  now := moment 0
  finish := ⟨moment 0, moment 0, moment 0, moment 0, moment 0, raw⟩
  exchange := ⟨moment 0, moment 0, moment 0, moment 0⟩
  raw := raw
  seed := []
  uuid := uuid
  rpc := fun _ => some ⟨verdictVerified, [], counter 2⟩
  probe := none

def request (method path query : Bytes) : Request :=
  ⟨method, { Url.URL.empty with path := path, rawQuery := query }, [], none, none⟩

/-- A login from the authorization request to the token, and a path that nothing serves. -/
def traffic : List Served :=
  [⟨request get (ascii "/authorize") params.encode, surroundings (some (pendingRaw 2)), none⟩,
    ⟨request get (ascii "/login/begin") (Url.Values.encode [(ascii "rid", rid 2)]),
      surroundings (some (Flow.Worked.challenge 2)), none⟩,
    ⟨request post (ascii "/token/") [], surroundings none, none⟩,
    ⟨{ request post (ascii "/login/finish") [] with finish := some (body 2) },
      surroundings (some Gateway.Worked.codeRaw), none⟩,
    ⟨{ request post (ascii "/token") [] with
        form := Gateway.Worked.exchange.form, dpop := Gateway.Worked.exchange.dpop },
      surroundings (some Sessions.Worked.jtiRaw), some Sessions.Worked.token⟩]

end Worked

theorem serves_flow_worked : ∃ es f, Run (StepOf (Worked.config.gateway
      Flow.Worked.gateway.token.signer Flow.Worked.clients Flow.Worked.gateway.ceremony
      Flow.Worked.gateway.platform Flow.Worked.gateway.codec).step)
      (.start (Sessions.Worked.moment 0) Flow.Worked.registered) es f ∧
    es.filterMap Event.token = [Sessions.Worked.token] := by
  obtain ⟨s, hr⟩ := Run.exists_of_foldlM
    (Worked.config.step Flow.Worked.gateway.platform Flow.Worked.gateway.codec)
    (.start (Sessions.Worked.moment 0) Flow.Worked.registered) Worked.traffic (by decide +kernel)
  obtain ⟨es, f, hrun, -, htokens⟩ := serves_flow rfl rfl (fun c hc => (Option.some.inj hc).symm) hr
  exact ⟨es, f, hrun, htokens⟩

end Server
end AiAuth
