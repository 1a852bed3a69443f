import AiAuth.CodeFlow
import AiAuth.SessionRuns

/-!
# Logging out everywhere

The code flow, the revocation store and a guarded route on one clock. A cutoff is compared with
the second a token was issued in; the login behind the token may be up to a code's lifetime older.
-/
namespace AiAuth.Logout
open Library Oidc

/-- One gateway and a route that it guards. -/
structure Deployment where
  gateway : Flow.Gateway
  route : Sessions.Authenticator

structure State where
  clock : ℤ
  flow : Flow.State
  revocations : Sessions.Revocations
  seen : Dpop.ReplayCache
  requests : Dict ℕ (Bytes × Tokens.Claims)

def State.start (clock : ℤ) (registered : Login.Credentials) : State :=
  ⟨clock, .start clock registered, .new, .new Dpop.ReplayCache.capacity, Dict.empty⟩

/-- A request to the route comes in two steps: token and proof are checked, and then the
revocation store is asked. -/
inductive Event
  | flow (e : Flow.Event)
  | revokeToken (now : ℤ) (jti : Bytes) (forgetAfter : ℤ)
  | revokeSubject (now : ℤ) (tenantID subjectID : Bytes)
  | revokeTenant (now : ℤ) (tenantID : Bytes)
  | authenticate (n : ℕ) (clk : Sessions.Readings) (r : Sessions.Request)
  | answer (n : ℕ) (token : Bytes) (out : Option Tokens.Claims)

/-- The clock as a section of the code flow reads it. -/
def reading : Flow.Event → Option ℤ
  | .authorize t _ _ | .begin t _ _ | .finish _ t _ _ | .take _ t _ _ | .redeem _ t _ _
  | .confirm _ _ t | .mint _ t _ _ _ => some t
  | .issue _ _ sweepAt _ _ _ => some sweepAt
  | .lookup _ | .verify _ _ _ _ _ | .update _ => none

namespace Deployment

/-- The requests under way after the first step of one more. -/
def onAuthenticate (d : Deployment) (s : State) (n : ℕ) (clk : Sessions.Readings)
    (r : Sessions.Request) : State :=
  match d.route.authenticate d.gateway.platform d.gateway.codec s.seen clk r with
  | (.error _, seen) => { s with clock := clk.cache, seen := seen }
  | (.ok found, seen) =>
    { s with clock := clk.cache, seen := seen, requests := s.requests.set n found }

/-- The clock never runs backwards; everything else is what the call does. -/
def step (d : Deployment) (s : State) : Event → Option State
  | .flow e =>
    if (reading e).all fun t => s.clock ≤ t then
      (d.gateway.step s.flow e).map fun f => { s with clock := max s.clock f.clock, flow := f }
    else none
  | .revokeToken now jti forgetAfter =>
    if s.clock ≤ now then
      some { s with clock := now, revocations := s.revocations.revokeToken now jti forgetAfter }
    else none
  | .revokeSubject now tenantID subjectID =>
    if s.clock ≤ now then
      some { s with clock := now, revocations := s.revocations.revokeSubject now tenantID subjectID }
    else none
  | .revokeTenant now tenantID =>
    if s.clock ≤ now then
      some { s with clock := now, revocations := s.revocations.revokeTenant now tenantID }
    else none
  | .authenticate n clk r =>
    if clk.token ≤ clk.proof ∧ clk.proof ≤ clk.cache ∧ s.clock ≤ clk.cache ∧
        s.requests.get n = none then
      some (d.onAuthenticate s n clk r)
    else none
  | .answer n token out =>
    match s.requests.get n with
    | some (raw, claims) =>
      if raw = token ∧ (Sessions.Authenticator.admitUnrevoked s.revocations.isRevoked
          claims).toOption = out then
        some { s with requests := s.requests.remove n }
      else none
    | none => none

end Deployment

/-- What each event does, with the conditions under which it can happen. -/
inductive Moves (d : Deployment) (s : State) : Event → State → Prop
  | flow {e f} : d.gateway.step s.flow e = some f →
    Moves d s (.flow e) { s with clock := max s.clock f.clock, flow := f }
  | revokeToken {now jti forgetAfter} : s.clock ≤ now →
    Moves d s (.revokeToken now jti forgetAfter)
      { s with clock := now, revocations := s.revocations.revokeToken now jti forgetAfter }
  | revokeSubject {now tenantID subjectID} : s.clock ≤ now →
    Moves d s (.revokeSubject now tenantID subjectID)
      { s with clock := now, revocations := s.revocations.revokeSubject now tenantID subjectID }
  | revokeTenant {now tenantID} : s.clock ≤ now →
    Moves d s (.revokeTenant now tenantID)
      { s with clock := now, revocations := s.revocations.revokeTenant now tenantID }
  | authenticate {n clk r} : s.clock ≤ clk.cache →
    Moves d s (.authenticate n clk r) (d.onAuthenticate s n clk r)
  | answer {n token claims} : s.requests.get n = some (token, claims) →
    Moves d s (.answer n token (Sessions.Authenticator.admitUnrevoked s.revocations.isRevoked
      claims).toOption) { s with requests := s.requests.remove n }

theorem moves_of_step {d : Deployment} {s s' : State} {e : Event} (h : d.step s e = some s') :
    Moves d s e s' := by
  cases e with
  | flow e =>
    simp only [Deployment.step] at h
    split_ifs at h
    obtain ⟨f, hf, rfl⟩ := Option.map_eq_some_iff.mp h
    exact .flow hf
  | revokeToken now jti forgetAfter =>
    simp only [Deployment.step] at h
    split_ifs at h with hclock
    obtain rfl := Option.some.inj h
    exact .revokeToken hclock
  | revokeSubject now tenantID subjectID =>
    simp only [Deployment.step] at h
    split_ifs at h with hclock
    obtain rfl := Option.some.inj h
    exact .revokeSubject hclock
  | revokeTenant now tenantID =>
    simp only [Deployment.step] at h
    split_ifs at h with hclock
    obtain rfl := Option.some.inj h
    exact .revokeTenant hclock
  | authenticate n clk r =>
    simp only [Deployment.step] at h
    split_ifs at h with hclock
    obtain rfl := Option.some.inj h
    exact .authenticate hclock.2.2.1
  | answer n token out =>
    simp only [Deployment.step] at h
    split at h
    next raw claims hn =>
      split_ifs at h with hanswer
      obtain ⟨rfl, rfl⟩ := hanswer
      obtain rfl := Option.some.inj h
      exact .answer hn
    · cases h

/-- The first step of a request touches the replay cache and the requests, and reads the clock. -/
lemma onAuthenticate_spec (d : Deployment) (s : State) (n : ℕ) (clk : Sessions.Readings)
    (r : Sessions.Request) : (d.onAuthenticate s n clk r).clock = clk.cache ∧
      (d.onAuthenticate s n clk r).flow = s.flow ∧
      (d.onAuthenticate s n clk r).revocations = s.revocations := by
  unfold Deployment.onAuthenticate
  split <;> exact ⟨rfl, rfl, rfl⟩

/-! ## Clock and cutoffs -/

section cutoffs
variable {d : Deployment} {s s' : State} {e : Event} {tr : List Event}

/-- No cutoff lies in the future. -/
def Bounded (s : State) : Prop :=
  ∀ tenantID subjectID x, s.revocations.cutOff tenantID subjectID x = true → x ≤ s.clock

lemma clock_step (h : d.step s e = some s') : s.clock ≤ s'.clock := by
  cases moves_of_step h with
  | flow hf => exact le_max_left _ _
  | revokeToken hclock => exact hclock
  | revokeSubject hclock => exact hclock
  | revokeTenant hclock => exact hclock
  | authenticate hclock => exact hclock.trans (onAuthenticate_spec d s _ _ _).1.ge
  | answer hn => exact le_rfl

/-- What a step does to the cutoffs of a subject: nothing, or the newest one is now. -/
lemma cutOff_step (hb : Bounded s) (h : d.step s e = some s') (tenantID subjectID : Bytes) :
    (∀ x, s'.revocations.cutOff tenantID subjectID x = s.revocations.cutOff tenantID subjectID x) ∨
      ∀ x, s'.revocations.cutOff tenantID subjectID x = true ↔ x ≤ s'.clock := by
  cases moves_of_step h with
  | flow hf => exact .inl fun _ => rfl
  | revokeToken hclock => exact .inl fun _ => rfl
  | @revokeSubject now tenant subject hclock =>
    by_cases hkey : (tenantID, subjectID) = (tenant, subject)
    · right
      intro x
      simp only [Sessions.Revocations.cutOff, Sessions.Revocations.revokeSubject, hkey,
        Dict.get_set_self, Bool.or_eq_true, Sessions.Revocations.caughtBy_some]
      refine ⟨fun hx => ?_, .inl⟩
      rcases hx with hx | hx
      · exact hx
      · exact (hb tenantID subjectID x (by simp [Sessions.Revocations.cutOff, hx])).trans hclock
    · left
      intro x
      simp only [Sessions.Revocations.cutOff, Sessions.Revocations.revokeSubject,
        Dict.get_set_ne _ hkey]
  | @revokeTenant now tenant hclock =>
    by_cases hkey : tenantID = tenant
    · right
      intro x
      simp only [Sessions.Revocations.cutOff, Sessions.Revocations.revokeTenant, hkey,
        Dict.get_set_self, Bool.or_eq_true, Sessions.Revocations.caughtBy_some]
      refine ⟨fun hx => ?_, .inr⟩
      rcases hx with hx | hx
      · exact (hb tenant subjectID x (by simp [Sessions.Revocations.cutOff, hx])).trans hclock
      · exact hx
    · left
      intro x
      simp only [Sessions.Revocations.cutOff, Sessions.Revocations.revokeTenant,
        Dict.get_set_ne _ hkey]
  | authenticate hclock =>
    left
    rw [(onAuthenticate_spec d s _ _ _).2.2]
    exact fun _ => rfl
  | answer hn => exact .inl fun _ => rfl

lemma Bounded.step (hb : Bounded s) (h : d.step s e = some s') : Bounded s' := by
  intro tenantID subjectID x hx
  rcases cutOff_step hb h tenantID subjectID with hsame | hnow
  · rw [hsame] at hx
    exact (hb _ _ x hx).trans (clock_step h)
  · exact (hnow x).mp hx

/-- What a cutoff has caught stays caught. -/
lemma cutOff_stays (hb : Bounded s) (h : d.step s e = some s') {tenantID subjectID : Bytes} {x : ℤ}
    (hx : s.revocations.cutOff tenantID subjectID x = true) :
    s'.revocations.cutOff tenantID subjectID x = true := by
  rcases cutOff_step hb h tenantID subjectID with hsame | hnow
  · rwa [hsame]
  · exact (hnow x).mpr ((hb _ _ x hx).trans (clock_step h))

/-- The event revokes the subject, or its tenant, at the instant `c`. -/
def Revokes (tenantID subjectID : Bytes) (c : ℤ) (e : Event) : Prop :=
  e = .revokeSubject c tenantID subjectID ∨ e = .revokeTenant c tenantID

lemma cutOff_of_revokes {tenantID subjectID : Bytes} {c : ℤ} (he : Revokes tenantID subjectID c e)
    (h : d.step s e = some s') : s'.revocations.cutOff tenantID subjectID c = true := by
  rcases he with rfl | rfl
  · cases moves_of_step h with
    | revokeSubject hclock =>
      simp [Sessions.Revocations.cutOff, Sessions.Revocations.revokeSubject]
  · cases moves_of_step h with
    | revokeTenant hclock =>
      simp [Sessions.Revocations.cutOff, Sessions.Revocations.revokeTenant]

end cutoffs

/-! ## What the trace says of a state -/

structure Inv (d : Deployment) (tr : List Event) (s : State) : Prop where
  bounded : Bounded s
  revoked : ∀ tenantID subjectID c e, e ∈ tr → Revokes tenantID subjectID c e →
    s.revocations.cutOff tenantID subjectID c = true
  requests : ∀ n token claims, s.requests.get n = some (token, claims) →
    Sessions.claimsOf d.gateway.codec token = some claims

section runs
variable {d : Deployment} {clock : ℤ} {registered : Login.Credentials} {s s' : State} {e : Event}
  {tr : List Event}

lemma requests_step (h : d.step s e = some s') {n : ℕ} {token : Bytes} {claims : Tokens.Claims}
    (hn : s'.requests.get n = some (token, claims)) :
    s.requests.get n = some (token, claims) ∨
      Sessions.claimsOf d.gateway.codec token = some claims := by
  cases moves_of_step h with
  | authenticate hclock =>
    unfold Deployment.onAuthenticate at hn
    split at hn
    · exact .inl hn
    next found seen hauth =>
      rcases Dict.get_of_set hn with ⟨-, rfl⟩ | ⟨-, hn⟩
      · exact .inr (Sessions.claimsOf_verify (Sessions.Authenticator.authenticate_ok hauth)).1
      · exact .inl hn
  | answer hk => exact .inl (Dict.get_of_remove hn)
  | _ => exact .inl hn

lemma Inv.step (hi : Inv d tr s) (h : d.step s e = some s') : Inv d (tr ++ [e]) s' := by
  refine ⟨hi.bounded.step h, ?_, ?_⟩
  · intro tenantID subjectID c e' he' hrevokes
    rcases List.mem_append.mp he' with he' | he'
    · exact cutOff_stays hi.bounded h (hi.revoked _ _ _ _ he' hrevokes)
    · rw [List.mem_singleton.mp he'] at hrevokes
      exact cutOff_of_revokes hrevokes h
  · intro n token claims hn
    rcases requests_step h hn with hn | hclaims
    · exact hi.requests n token claims hn
    · exact hclaims

theorem inv_run (hr : Run (StepOf d.step) (.start clock registered) tr s) : Inv d tr s := by
  refine hr.invariant (Inv d) ⟨?_, by simp, by simp [State.start]⟩ fun _ _ _ _ _ hi hs =>
    hi.step hs
  intro tenantID subjectID x hx
  simp [State.start, Sessions.Revocations.cutOff, Sessions.Revocations.new,
    Sessions.Revocations.caughtBy] at hx

/-- The events of the code flow. -/
def Event.inFlow : Event → Option Flow.Event
  | .flow e => some e
  | _ => none

/-- Without its other events, a run is a run of the code flow. -/
theorem flow_run (hr : Run (StepOf d.step) (.start clock registered) tr s) :
    Run (StepOf d.gateway.step) (.start clock registered) (tr.filterMap Event.inFlow) s.flow := by
  refine hr.invariant (fun tr s => Run (StepOf d.gateway.step) (.start clock registered)
    (tr.filterMap Event.inFlow) s.flow) .nil fun tr s e s' _ ih hs => ?_
  have hsnoc : (tr ++ [e]).filterMap Event.inFlow =
      tr.filterMap Event.inFlow ++ e.inFlow.toList := by
    rw [List.filterMap_append]
    cases e <;> rfl
  rw [hsnoc]
  cases moves_of_step hs with
  | flow hf => exact ih.snoc hf
  | authenticate hclock =>
    rw [(onAuthenticate_spec d s _ _ _).2.1]
    simpa [Event.inFlow] using ih
  | _ => simpa [Event.inFlow] using ih

end runs

/-! ## Logins and cutoffs -/

/-- JSON gives UTF-8 ids, and the issue time, back as they were. -/
def KeepsIdentity (J : Tokens.Codec) : Prop :=
  ∀ c c', J.unmarshalClaims (J.marshalClaims c) = some c' →
    isUtf8 c.tenantID = true → isUtf8 c.subject = true →
    c'.tenantID = c.tenantID ∧ c'.subject = c.subject ∧ c'.issuedAt = c.issuedAt

/-- A call to the Guard that is answered could be put: its ids are UTF-8. -/
def putUtf8 : Event → Bool
  | .flow (.verify _ _ _ ask (some _)) => isUtf8 ask.call.tenantID && isUtf8 ask.call.subjectID
  | _ => true

/-- A cutoff in force that catches the login behind a token catches the token as well. -/
def overtaken (s : State) : Event → Bool
  | .flow (.mint k t _ _ (some _)) =>
    match s.flow.exchanges.get k with
    | some (.confirmed g _) =>
      s.revocations.cutOff g.tenantID g.subjectID g.authTime &&
        !s.revocations.cutOff g.tenantID g.subjectID (Time.ofUnix (Time.unix t))
    | _ => false
  | _ => false

section cutoff
variable {d : Deployment} {clock : ℤ} {registered : Login.Credentials} {s s' : State}
  {tr pre mid post : List Event} {j k n : ℕ} {t t' : ℤ} {raw : Option Bytes} {seed token : Bytes}
  {g : Grant} {confirm : Option Tokens.Confirm} {claims : Tokens.Claims}

/-- The grant and the clock of a step that mints a token. -/
lemma mint_of_step (h : d.step s (.flow (.mint k t raw seed (some token))) = some s') :
    ∃ g confirm, s.flow.exchanges.get k = some (.confirmed g confirm) ∧
      d.gateway.mint t raw seed g confirm = some token ∧ t ≤ s'.clock ∧
      s'.revocations = s.revocations := by
  cases moves_of_step h with
  | flow hf =>
    obtain ⟨minted, hminted⟩ : ∃ minted, minted = some token := ⟨_, rfl⟩
    rw [← hminted] at hf
    cases Flow.moves_of_step hf with
    | mint hk hclock hfresh => exact ⟨_, _, hk, hminted, le_max_right _ _, rfl⟩

/-- A token that is read back names the subject of its grant and the second it was issued in. -/
lemma identity_of_mint (hjson : KeepsIdentity d.gateway.codec) (htenant : isUtf8 g.tenantID = true)
    (hsubject : isUtf8 g.subjectID = true)
    (hmint : d.gateway.mint t raw seed g confirm = some token)
    (hclaims : Sessions.claimsOf d.gateway.codec token = some claims) :
    claims.tenantID = g.tenantID ∧ claims.subject = g.subjectID ∧
      claims.issuedAt = Time.unix t := by
  unfold Flow.Gateway.mint at hmint
  cases hres : d.gateway.token.mint d.gateway.platform.toCrypto d.gateway.codec t raw seed g
      confirm with
  | error resp =>
    rw [hres] at hmint
    cases hmint
  | ok token' =>
    rw [hres] at hmint
    obtain rfl := Option.some.inj hmint
    obtain ⟨jti, sig, -, rfl⟩ := Token.mint_ok hres
    exact hjson _ _ (Sessions.claimsOf_compact hclaims) htenant hsubject

/-- A request that passes has claims that no cutoff catches. -/
lemma passed_of_step (h : d.step s (.answer n token (some claims)) = some s') :
    s.requests.get n = some (token, claims) ∧
      s.revocations.cutOff claims.tenantID claims.subject
        (Time.ofUnix claims.issuedAt) = false := by
  obtain ⟨out, hout⟩ : ∃ out, out = some claims := ⟨_, rfl⟩
  rw [← hout] at h
  cases moves_of_step h with
  | answer hn =>
    unfold Sessions.Authenticator.admitUnrevoked at hout
    split_ifs at hout with hrevoked
    · cases hout
    · obtain rfl := Option.some.inj hout
      exact ⟨hn, Sessions.Revocations.cutOff_of_isRevoked (by
        simpa [Sessions.RevocationChecker.ofClaims] using hrevoked)⟩

/-- While the second of issue lies in the past, a cutoff that catches the login keeps catching
the token. -/
lemma caught_stays {tenantID subjectID : Bytes} {login issued : ℤ} (hb : Bounded s)
    (hclock : issued ≤ s.clock) {e : Event} (h : d.step s e = some s')
    (hcaught : s.revocations.cutOff tenantID subjectID login = true →
      s.revocations.cutOff tenantID subjectID issued = true) :
    s'.revocations.cutOff tenantID subjectID login = true →
      s'.revocations.cutOff tenantID subjectID issued = true := by
  rcases cutOff_step hb h tenantID subjectID with hsame | hnow
  · rw [hsame, hsame]
    exact hcaught
  · exact fun _ => (hnow issued).mpr (hclock.trans (clock_step h))

lemma caught_run {tenantID subjectID : Bytes} {login issued : ℤ}
    (hr : Run (StepOf d.step) s mid s') (hb : Bounded s) (hclock : issued ≤ s.clock)
    (hcaught : s.revocations.cutOff tenantID subjectID login = true →
      s.revocations.cutOff tenantID subjectID issued = true) :
    s'.revocations.cutOff tenantID subjectID login = true →
      s'.revocations.cutOff tenantID subjectID issued = true := by
  refine (hr.invariant (fun _ s => Bounded s ∧ issued ≤ s.clock ∧
    (s.revocations.cutOff tenantID subjectID login = true →
      s.revocations.cutOff tenantID subjectID issued = true)) ⟨hb, hclock, hcaught⟩ ?_).2.2
  rintro tr s e s' - ⟨hb, hle, himp⟩ hs
  exact ⟨hb.step hs, hle.trans (clock_step hs), caught_stays hb hle hs himp⟩

/-- Where all calls to the Guard could be put, the ids of a confirmed grant are UTF-8. -/
lemma utf8_of_confirmed {p : State → Event → Prop} (hp : ∀ s e, p s e → putUtf8 e = true)
    (hr : Run (Guarded p (StepOf d.step)) (.start clock registered) tr s)
    (hk : s.flow.exchanges.get k = some (.confirmed g confirm)) :
    isUtf8 g.tenantID = true ∧ isUtf8 g.subjectID = true := by
  have hputs : ∀ e ∈ tr, putUtf8 e = true := by
    refine hr.invariant (fun tr _ => ∀ e ∈ tr, putUtf8 e = true) (by simp) ?_
    rintro tr s e s' - ih ⟨hpe, -⟩ e' he'
    rcases List.mem_append.mp he' with he' | he'
    · exact ih e' he'
    · rw [List.mem_singleton.mp he']
      exact hp s e hpe
  obtain ⟨m, id, uuid, ask, resp, hverify, htenant, hsubject⟩ :=
    Flow.verified_of_confirmed (Flow.inv_run (flow_run hr.of_guarded)) hk
  obtain ⟨e, he, hin⟩ := List.mem_filterMap.mp hverify
  have hput := hputs e he
  cases e with
  | flow e =>
    obtain rfl := Option.some.inj hin
    simpa [putUtf8, htenant, hsubject] using hput
  | _ => cases hin

/-- The grant of a token is the one that its token request redeemed. -/
lemma grant_of_confirmed {req : TokenRequest} {g' : Grant}
    (hr : Run (StepOf d.step) (.start clock registered) tr s)
    (hk : s.flow.exchanges.get k = some (.confirmed g' confirm))
    (hredeem : .flow (.redeem k t req (some g)) ∈ tr) : g' = g := by
  have hmem : .redeem k t req (some g) ∈ tr.filterMap Event.inFlow :=
    List.mem_filterMap.mpr ⟨_, hredeem, rfl⟩
  obtain ⟨st, hst, hg⟩ := Flow.grant_of_redeem (flow_run hr) _ _ _ _ hmem
  obtain rfl := Option.some.inj (hk.symm.trans hst)
  exact hg g' rfl

end cutoff

/-- As long as no token is minted that a cutoff should have prevented, a token that passes was
obtained by a login after every cutoff of its subject and of its tenant. -/
theorem login_after_cutoff {d : Deployment} {clock : ℤ} {registered : Login.Credentials} {s : State}
    {tr pre mid post : List Event} {k n : ℕ} {t t' c : ℤ} {raw : Option Bytes} {seed token : Bytes}
    {req : TokenRequest} {g : Grant} {claims : Tokens.Claims}
    (hjson : KeepsIdentity d.gateway.codec)
    (hr : Run (Guarded (fun s e => putUtf8 e = true ∧ overtaken s e = false) (StepOf d.step))
      (.start clock registered) tr s)
    (htr : tr = (pre ++ .flow (.mint k t raw seed (some token)) :: mid) ++
      .answer n token (some claims) :: post)
    (hredeem : .flow (.redeem k t' req (some g)) ∈ pre)
    (hrevoke : ∃ e ∈ pre ++ .flow (.mint k t raw seed (some token)) :: mid,
      Revokes g.tenantID g.subjectID c e) : c < g.authTime := by
  obtain ⟨s₃, s₄, hr₃, ⟨-, hanswer⟩, -⟩ := hr.at_label _ post htr
  obtain ⟨s₁, s₂, hr₁, ⟨⟨hput, hovertaken⟩, hmint⟩, hmid⟩ := hr₃.at_label pre mid rfl
  obtain ⟨g', confirm, hk, htoken, hclock, hsame⟩ := mint_of_step hmint
  obtain rfl := grant_of_confirmed hr₁.of_guarded hk hredeem
  have hutf := utf8_of_confirmed (fun _ _ h => h.1) hr₁ hk
  have hi₃ := inv_run hr₃.of_guarded
  obtain ⟨hn, hlive⟩ := passed_of_step hanswer
  obtain ⟨htenant, hsubject, hissued⟩ := identity_of_mint hjson hutf.1 hutf.2 htoken
    (hi₃.requests n token claims hn)
  rw [htenant, hsubject, hissued] at hlive
  have hstart : s₂.revocations.cutOff g'.tenantID g'.subjectID g'.authTime = true →
      s₂.revocations.cutOff g'.tenantID g'.subjectID (Time.ofUnix (Time.unix t)) = true := by
    rw [hsame]
    simpa [overtaken, hk] using hovertaken
  have hbounded : Bounded s₂ := (inv_run hr₁.of_guarded).bounded.step hmint
  have hcaught := caught_run hmid.of_guarded hbounded ((Time.ofUnix_unix_le t).trans hclock) hstart
  obtain ⟨e, he, hrevokes⟩ := hrevoke
  have hrevoked := hi₃.revoked _ _ c e he hrevokes
  by_contra hlate
  have hlogin := Sessions.Revocations.cutOff_mono (not_lt.mp hlate) hrevoked
  rw [hcaught hlogin] at hlive
  cases hlive

namespace Worked
open Sessions.Worked (moment)

def deployment : Deployment := ⟨Flow.Worked.gateway, Sessions.Worked.service.auth⟩

def login : List Event := (Flow.Worked.login (moment (-10))).map .flow

def exchanged : List Event := (Flow.Worked.exchanged (moment (-10))).map .flow

def cutOff (s : ℤ) : Event := .revokeSubject (moment s) (ascii "t1") (ascii "u1")

def presented : Event :=
  .authenticate 0 ⟨moment 610, moment 610, moment 610⟩ Sessions.Worked.request

def passed : Event := .answer 0 Sessions.Worked.token (some Sessions.Worked.claims)

/-- The subject is revoked between the login and the exchange of its code. -/
def late : List Event := login ++ cutOff (-5) :: exchanged

def early : List Event := cutOff (-20) :: login ++ exchanged

end Worked

/-- A code outlives the cutoff, and the token obtained with it passes. -/
theorem login_outlives_cutoff :
    (∃ s, Run (Guarded (fun _ e => putUtf8 e = true) (StepOf Worked.deployment.step))
      (.start (Sessions.Worked.moment (-30)) Flow.Worked.registered)
      (Worked.late ++ .flow Flow.Worked.minted :: [Worked.presented] ++ [Worked.passed]) s) ∧
    .flow (.redeem 0 (Sessions.Worked.moment 0) Gateway.Worked.exchange
      (some (Flow.Worked.grant (Sessions.Worked.moment (-10))))) ∈ Worked.late ∧
    (∃ e ∈ Worked.late, Revokes (ascii "t1") (ascii "u1") (Sessions.Worked.moment (-5)) e) ∧
    ¬ Sessions.Worked.moment (-5) < (Flow.Worked.grant (Sessions.Worked.moment (-10))).authTime := by
  refine ⟨Run.exists_of_foldlM_guarded (fun _ e => putUtf8 e = true) Worked.deployment.step _ _
    (by decide +kernel), ?_, ⟨Worked.cutOff (-5), ?_, .inl rfl⟩, by decide⟩
  · simp [Worked.late, Worked.exchanged, Flow.Worked.exchanged]
  · simp [Worked.late]

theorem login_after_cutoff_worked :
    Sessions.Worked.moment (-20) < (Flow.Worked.grant (Sessions.Worked.moment (-10))).authTime := by
  have hjson : KeepsIdentity Worked.deployment.gateway.codec := by
    intro c c' h _ _
    rw [Sessions.Worked.codec_claims h]
    exact ⟨rfl, rfl, rfl⟩
  obtain ⟨s, hr⟩ := Run.exists_of_foldlM_guarded
    (fun s e => putUtf8 e = true ∧ overtaken s e = false) Worked.deployment.step
    (.start (Sessions.Worked.moment (-30)) Flow.Worked.registered)
    (Worked.early ++ .flow Flow.Worked.minted :: [Worked.presented] ++ [Worked.passed])
    (by decide +kernel)
  have hredeem : .flow (.redeem 0 (Sessions.Worked.moment 0) Gateway.Worked.exchange
      (some (Flow.Worked.grant (Sessions.Worked.moment (-10))))) ∈ Worked.early := by
    simp [Worked.early, Worked.exchanged, Flow.Worked.exchanged]
  exact login_after_cutoff hjson hr rfl hredeem
    ⟨Worked.cutOff (-20), by simp [Worked.early], .inl rfl⟩

end AiAuth.Logout
