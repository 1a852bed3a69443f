import AiAuth.CodeFlow
import AiAuth.Service

/-!
# Counters of an authenticator

Two authenticators with one key give themselves away by their counters, if every counter that
is accepted is compared with the newest one. A finish request reads the stored counter, has the
Guard compare against it, and writes the new one, in three steps.
-/
namespace AiAuth.Flow
open Library Oidc Login CryptoService

/-- The Guard answers calls that can be put, and its positive verdicts are the verifier's,
against the count it was handed. -/
def honest (P : Webauthn.Platform) : Event → Bool
  | .verify _ _ _ ask (some resp) =>
    ask.call.tenantID ≠ [] && (resp.verdict ≠ verdictVerified ||
      Webauthn.verify P ⟨ask.rpID, ask.origin, ask.challenge, ask.credential.signCount⟩
        ask.credential.cosePublicKey ask.assertion = .ok ⟨resp.newSignCount⟩)
  | _ => true

/-- The counter, unless zero, of an assertion of the credential that the Guard accepts. -/
def acceptedCount (id : Bytes) : Event → Option ℕ
  | .verify _ id' _ _ (some resp) =>
    if id' = id ∧ resp.verdict = verdictVerified ∧ resp.newSignCount ≠ 0 then
      some resp.newSignCount
    else none
  | _ => none

def storedCount (s : State) (id : Bytes) : ℕ :=
  ((s.credentials.items.get id).map Credential.signCount).getD 0

/-- The request has a counter of the credential still to write. -/
def waiting (id : Bytes) : Finish → Bool
  | .verified _ cred count => cred.id = id && count ≠ 0
  | _ => false

/-- An accepted counter was compared with the stored one, and no other one is on its way. -/
def undisturbed (id : Bytes) (s : State) (e : Event) : Bool :=
  match e with
  | .verify _ _ _ ask _ =>
    (acceptedCount id e).isNone || (ask.credential.signCount = storedCount s id &&
      s.finishes.all fun _ st => !waiting id st)
  | _ => true

/-- What the handler of the Guard answers is honest. -/
theorem honest_of_guard {P : Webauthn.Platform} {g : Guard} {gs : CryptoService.State} {m : Moment}
    {n : ℕ} {id uuid : Bytes} {ask : Ask} {resp : VerifyAssertionResponse}
    (h : verifyPasskey (fun req => (g.verifyAssertion P gs m req).1.toOption) uuid ask =
      some resp) : honest P (.verify n id uuid ask (some resp)) = true := by
  unfold verifyPasskey at h
  obtain ⟨rc, hrc, hresp⟩ := Option.bind_eq_some_iff.mp h
  have htenant : ask.call.tenantID ≠ [] := by
    unfold Call.context at hrc
    intro hempty
    rw [if_pos hempty] at hrc
    cases hrc
  by_cases hverdict : resp.verdict = verdictVerified
  · cases hans : g.verifyAssertion P gs m ⟨some rc, ask.rpID, ask.origin, ask.challenge,
        some ask.credential, some ask.assertion⟩ with
    | mk res gs' =>
      dsimp only at hresp
      rw [hans] at hresp
      cases res with
      | error e => cases hresp
      | ok resp' =>
        obtain rfl := Option.some.inj hresp
        obtain ⟨cred, assertion, hcred, hassertion, hverify⟩ :=
          verifyAssertion_verified hans hverdict
        obtain rfl := Option.some.inj hcred
        obtain rfl := Option.some.inj hassertion
        simp [honest, htenant, hverify]
  · simp [honest, htenant, hverdict]

/-- The credential that a request has looked up and may still write to. -/
def Finish.credential : Finish → Option Credential
  | .found _ _ cred _ | .verified _ cred _ => some cred
  | _ => none

/-- Where the counters of a credential stand: an accepted one is written, or it is the newest
and the only one still to be written. -/
structure Counted (id : Bytes) (tr : List Event) (s : State) : Prop where
  known : ∀ n st cred, s.finishes.get n = some st → st.credential = some cred →
    s.credentials.items.get cred.id ≠ none
  nodup : (tr.filterMap (acceptedCount id)).Nodup
  newest : ∀ n req cred count, s.finishes.get n = some (.verified req cred count) →
    waiting id (.verified req cred count) = true →
    storedCount s id < count ∧ ∀ c ∈ tr.filterMap (acceptedCount id), c ≤ count
  single : ∀ n n' st st', s.finishes.get n = some st → waiting id st = true →
    s.finishes.get n' = some st' → waiting id st' = true → n = n'
  written : ∀ c ∈ tr.filterMap (acceptedCount id),
    c ≤ storedCount s id ∨ ∃ n st, s.finishes.get n = some st ∧ waiting id st = true

section counted
variable {w : Gateway} {P : Webauthn.Platform} {id : Bytes} {tr : List Event} {s s' : State}
  {e : Event}

/-- A step that accepts no counter and writes none. -/
lemma Counted.quiet (h : Counted id tr s) (he : acceptedCount id e = none)
    (hstored : storedCount s' id = storedCount s id)
    (hknown : ∀ x, s.credentials.items.get x ≠ none → s'.credentials.items.get x ≠ none)
    (hnew : ∀ n st, s'.finishes.get n = some st → s.finishes.get n = some st ∨
      (waiting id st = false ∧
        ∀ cred, st.credential = some cred → s.credentials.items.get cred.id ≠ none))
    (hold : ∀ n st, s.finishes.get n = some st → waiting id st = true →
      s'.finishes.get n = some st) : Counted id (tr ++ [e]) s' := by
  have hsame : (tr ++ [e]).filterMap (acceptedCount id) = tr.filterMap (acceptedCount id) := by
    simp [he]
  have hwas : ∀ n st, s'.finishes.get n = some st → waiting id st = true →
      s.finishes.get n = some st := by
    intro n st hst hwait
    rcases hnew n st hst with hst | ⟨hnot, -⟩
    · exact hst
    · rw [hnot] at hwait
      cases hwait
  refine ⟨?_, hsame ▸ h.nodup, ?_, ?_, ?_⟩
  · intro n st cred hst hcred
    rcases hnew n st hst with hst | ⟨-, hpresent⟩
    · exact hknown _ (h.known n st cred hst hcred)
    · exact hknown _ (hpresent cred hcred)
  · intro n req cred count hst hwait
    rw [hstored, hsame]
    exact h.newest n req cred count (hwas n _ hst hwait) hwait
  · intro n n' st st' hst hwait hst' hwait'
    exact h.single n n' st st' (hwas n st hst hwait) hwait (hwas n' st' hst' hwait') hwait'
  · intro c hc
    rw [hsame] at hc
    rw [hstored]
    rcases h.written c hc with hle | ⟨n, st, hst, hwait⟩
    · exact .inl hle
    · exact .inr ⟨n, st, hold n st hst hwait, hwait⟩

/-- The same for a step that moves one request on, which has nothing to write. -/
lemma Counted.move (h : Counted id tr s) (he : acceptedCount id e = none) {n : ℕ} {st : Finish}
    (hfinishes : s'.finishes = s.finishes.set n st)
    (hstored : storedCount s' id = storedCount s id)
    (hknown : ∀ x, s.credentials.items.get x ≠ none → s'.credentials.items.get x ≠ none)
    (hbefore : (s.finishes.get n).all (fun st₀ => !waiting id st₀) = true)
    (hafter : waiting id st = false)
    (hcred : ∀ cred, st.credential = some cred → s.credentials.items.get cred.id ≠ none) :
    Counted id (tr ++ [e]) s' := by
  refine h.quiet he hstored hknown (fun m st' hst' => ?_) fun m st' hst' hwait => ?_
  · rw [hfinishes] at hst'
    rcases Dict.get_of_set hst' with ⟨-, rfl⟩ | ⟨-, hst'⟩
    · exact .inr ⟨hafter, hcred⟩
    · exact .inl hst'
  · rw [hfinishes, Dict.get_set]
    split_ifs with hm
    · rw [← hm, hst', Option.all_some, hwait] at hbefore
      cases hbefore
    · exact hst'

/-- What the Guard honestly accepts is put to it. -/
lemma verifyPasskey_honest {n : ℕ} {id uuid : Bytes} {ask : Ask} {resp : VerifyAssertionResponse}
    (h : honest P (.verify n id uuid ask (some resp)) = true) :
    verifyPasskey (fun _ => some resp) uuid ask = some resp := by
  have htenant : ask.call.tenantID ≠ [] := by
    simp only [honest, Bool.and_eq_true, decide_eq_true_eq] at h
    exact h.1
  simp [verifyPasskey, Call.context, htenant]

/-- An accepted counter has moved past the count that the Guard was handed. -/
lemma honest_count {n : ℕ} {id' uuid : Bytes} {ask : Ask} {answer : Option VerifyAssertionResponse}
    {count : ℕ} (h : honest P (.verify n id' uuid ask answer) = true)
    (hcount : acceptedCount id (.verify n id' uuid ask answer) = some count) :
    ask.credential.signCount < count := by
  cases answer with
  | none => cases hcount
  | some resp =>
    simp only [acceptedCount] at hcount
    split_ifs at hcount with haccepted
    obtain ⟨-, hverdict, hne⟩ := haccepted
    obtain rfl := Option.some.inj hcount
    simp only [honest, Bool.and_eq_true, Bool.or_eq_true, decide_eq_true_eq] at h
    rcases h.2 with hother | hverify
    · exact absurd hverdict hother
    · exact (Webauthn.verify_count hverify).2 hne

/-- Under an honest Guard the accepted counters are those the handler goes on with. -/
lemma acceptedCount_judge {n : ℕ} {id' uuid : Bytes} {ask : Ask}
    {answer : Option VerifyAssertionResponse}
    (h : honest P (.verify n id' uuid ask answer) = true) :
    acceptedCount id (.verify n id' uuid ask answer) =
      match Ceremony.judge (verifyPasskey (fun _ => answer) uuid ask) with
      | .ok count => if id' = id ∧ count ≠ 0 then some count else none
      | .error _ => none := by
  cases answer with
  | none => simp [verifyPasskey, Ceremony.judge, acceptedCount]
  | some resp =>
    rw [verifyPasskey_honest h]
    by_cases hv : resp.verdict = verdictVerified
    · simp [Ceremony.judge, acceptedCount, hv]
    · simp [Ceremony.judge, acceptedCount, hv]

lemma storedCount_update {n : ℕ} {req : FinishRequest} {cred c : Credential} {count : ℕ}
    (hc : s.credentials.items.get cred.id = some c) (hcount : count ≠ 0) :
    storedCount (Gateway.onUpdate s n req cred count) id =
      if id = cred.id then count else storedCount s id := by
  unfold storedCount Gateway.onUpdate
  dsimp only
  rw [persist_get hc hcount]
  split_ifs <;> rfl

lemma storedCount_other {n : ℕ} {req : FinishRequest} {cred c : Credential} {count : ℕ}
    (hc : s.credentials.items.get cred.id = some c)
    (hwait : ¬ waiting id (.verified req cred count) = true) :
    storedCount (Gateway.onUpdate s n req cred count) id = storedCount s id := by
  by_cases hcount : count = 0
  · simp [storedCount, Gateway.onUpdate, Ceremony.persist, hcount]
  · have hid : id ≠ cred.id := by
      rintro rfl
      exact hwait (by simp [waiting, hcount])
    rw [storedCount_update hc hcount, if_neg hid]

lemma persist_present {cred c : Credential} {count : ℕ} {x : Bytes}
    (hc : s.credentials.items.get cred.id = some c) (hx : s.credentials.items.get x ≠ none) :
    (Ceremony.persist s.credentials cred count).items.get x ≠ none := by
  by_cases hcount : count = 0
  · simpa [Ceremony.persist, hcount] using hx
  · rw [persist_get hc hcount]
    split_ifs
    · exact Option.some_ne_none _
    · exact hx

/-- While nothing waits to be written, the stored count has caught up. -/
lemma Counted.below (h : Counted id tr s)
    (hquiet : ∀ m st, s.finishes.get m = some st → waiting id st = false) {c : ℕ}
    (hc : c ∈ tr.filterMap (acceptedCount id)) : c ≤ storedCount s id := by
  rcases h.written c hc with hle | ⟨m, st, hst, hwait⟩
  · exact hle
  · rw [hquiet m st hst] at hwait
    cases hwait

/-- Then the one request that moves is the only one that can wait. -/
lemma only_waiting {n m : ℕ} {st st' : Finish}
    (hquiet : ∀ m st, s.finishes.get m = some st → waiting id st = false)
    (hst : (s.finishes.set n st').get m = some st) (hwait : waiting id st = true) :
    m = n ∧ st = st' := by
  rcases Dict.get_of_set hst with hnew | ⟨-, hst⟩
  · exact hnew
  · rw [hquiet m st hst] at hwait
    cases hwait

/-- An accepted counter that the newest one was compared with. -/
lemma Counted.accept (h : Counted id tr s) {n count : ℕ} {req : FinishRequest} {cred : Credential}
    (he : acceptedCount id e = some count) (hid : cred.id = id) (hne : count ≠ 0)
    (hfinishes : s'.finishes = s.finishes.set n (.verified req cred count))
    (hcredentials : s'.credentials = s.credentials)
    (hcred : s.credentials.items.get cred.id ≠ none) (hcount : storedCount s id < count)
    (hquiet : ∀ m st, s.finishes.get m = some st → waiting id st = false) :
    Counted id (tr ++ [e]) s' := by
  have hsnoc : (tr ++ [e]).filterMap (acceptedCount id) =
      tr.filterMap (acceptedCount id) ++ [count] := by
    simp [he]
  have hstored : storedCount s' id = storedCount s id := by
    rw [storedCount, storedCount, hcredentials]
  have hbelow : ∀ c ∈ tr.filterMap (acceptedCount id), c ≤ storedCount s id := fun c hc =>
    h.below hquiet hc
  have hself : s'.finishes.get n = some (.verified req cred count) := by
    rw [hfinishes, Dict.get_set_self]
  have honly : ∀ m st, s'.finishes.get m = some st → waiting id st = true →
      m = n ∧ st = .verified req cred count := by
    intro m st hst hwait
    rw [hfinishes] at hst
    exact only_waiting hquiet hst hwait
  refine ⟨?_, ?_, ?_, ?_, ?_⟩
  · intro m st cred' hst hcred'
    rw [hcredentials]
    rw [hfinishes] at hst
    rcases Dict.get_of_set hst with ⟨-, rfl⟩ | ⟨-, hst⟩
    · obtain rfl := Option.some.inj hcred'
      exact hcred
    · exact h.known m st cred' hst hcred'
  · refine nodup_filterMap_snoc h.nodup fun k hk hmem => ?_
    obtain rfl := Option.some.inj (he.symm.trans hk)
    exact absurd (hbelow _ hmem) (not_le.mpr hcount)
  · intro m req' cred' count' hst hwait
    obtain ⟨-, hsame⟩ := honly m _ hst hwait
    injection hsame with hreq hcred hcount'
    subst hcount'
    rw [hstored, hsnoc]
    refine ⟨hcount, fun c hc => ?_⟩
    rcases List.mem_append.mp hc with hc | hc
    · exact (hbelow c hc).trans hcount.le
    · exact (List.mem_singleton.mp hc).le
  · intro m m' st st' hst hwait hst' hwait'
    exact (honly m st hst hwait).1.trans (honly m' st' hst' hwait').1.symm
  · intro c hc
    rw [hsnoc] at hc
    rw [hstored]
    rcases List.mem_append.mp hc with hc | hc
    · exact .inl (hbelow c hc)
    · exact .inr ⟨n, _, hself, by simp [waiting, hid, hne]⟩

/-- The newest counter is written. -/
lemma Counted.write (h : Counted id tr s) {n count : ℕ} {req : FinishRequest} {cred : Credential}
    (hn : s.finishes.get n = some (.verified req cred count))
    (hwait : waiting id (.verified req cred count) = true) :
    Counted id (tr ++ [.update n]) (Gateway.onUpdate s n req cred count) := by
  obtain ⟨hid, hne⟩ : cred.id = id ∧ count ≠ 0 := by simpa [waiting] using hwait
  have hsame : (tr ++ [Event.update n]).filterMap (acceptedCount id) =
      tr.filterMap (acceptedCount id) := by
    simp [acceptedCount]
  obtain ⟨c, hc⟩ := Option.ne_none_iff_exists'.mp (h.known n _ cred hn rfl)
  have hstored : storedCount (Gateway.onUpdate s n req cred count) id = count := by
    rw [storedCount_update hc hne, if_pos hid.symm]
  have hfinishes : ∀ m st, (Gateway.onUpdate s n req cred count).finishes.get m = some st →
      (m = n ∧ st = .counted req cred) ∨ (m ≠ n ∧ s.finishes.get m = some st) :=
    fun m st hst => Dict.get_of_set hst
  have hdone : ∀ m st, (Gateway.onUpdate s n req cred count).finishes.get m = some st →
      waiting id st = false := by
    intro m st hst
    rcases hfinishes m st hst with ⟨-, rfl⟩ | ⟨hm, hst⟩
    · rfl
    · by_contra hwaiting
      exact hm (h.single m n st _ hst (by simpa using hwaiting) hn hwait)
  refine ⟨?_, hsame ▸ h.nodup, ?_, ?_, ?_⟩
  · intro m st cred' hst hcred'
    rcases hfinishes m st hst with ⟨-, rfl⟩ | ⟨-, hst⟩
    · cases hcred'
    · exact persist_present hc (h.known m st cred' hst hcred')
  · intro m req' cred' count' hst hwait'
    rw [hdone m _ hst] at hwait'
    cases hwait'
  · intro m m' st st' hst hwait'
    rw [hdone m st hst] at hwait'
    cases hwait'
  · intro c' hc'
    rw [hstored]
    exact .inl ((h.newest n req cred count hn hwait).2 c' (hsame ▸ hc'))

/-- A step that only touches other parts of the state. -/
lemma Counted.idle (h : Counted id tr s) (he : acceptedCount id e = none)
    (hfinishes : s'.finishes = s.finishes) (hcredentials : s'.credentials = s.credentials) :
    Counted id (tr ++ [e]) s' := by
  refine h.quiet he ?_ ?_ ?_ ?_
  · rw [storedCount, storedCount, hcredentials]
  · exact fun x hx => hcredentials ▸ hx
  · exact fun n st hst => .inl (hfinishes ▸ hst)
  · exact fun n st hst _ => hfinishes ▸ hst

/-- An answer of the Guard: a rejection, the newest counter, or nothing about this credential. -/
lemma Counted.verify (h : Counted id tr s) {n : ℕ} {uuid : Bytes}
    {answer : Option VerifyAssertionResponse} {req : FinishRequest} {challenge : Bytes}
    {cred : Credential} {assertion : Assertion}
    (hn : s.finishes.get n = some (.found req challenge cred assertion))
    (he : e = .verify n cred.id uuid (w.ceremony.ask challenge cred assertion) answer)
    (hhonest : honest P e = true) (hu : undisturbed id s e = true) : Counted id (tr ++ [e])
      (Gateway.onVerify s n uuid (w.ceremony.ask challenge cred assertion) answer req cred) := by
  subst he
  have hpresent : s.credentials.items.get cred.id ≠ none := h.known n _ cred hn rfl
  have haccepted : acceptedCount id _ = _ := acceptedCount_judge hhonest
  cases hjudge : Ceremony.judge (verifyPasskey (fun _ => answer) uuid
      (w.ceremony.ask challenge cred assertion)) with
  | error resp =>
    rw [hjudge] at haccepted
    have hfinishes : (Gateway.onVerify s n uuid (w.ceremony.ask challenge cred assertion) answer
        req cred).finishes = s.finishes.set n .ended := by
      rw [Gateway.onVerify, hjudge]
      rfl
    refine h.move haccepted hfinishes rfl (fun _ hx => hx) (by rw [hn]; rfl) rfl ?_
    intro cred' hcred'
    cases hcred'
  | ok count =>
    rw [hjudge] at haccepted
    dsimp only at haccepted
    have hfinishes : (Gateway.onVerify s n uuid (w.ceremony.ask challenge cred assertion) answer
        req cred).finishes = s.finishes.set n (.verified req cred count) := by
      rw [Gateway.onVerify, hjudge]
      rfl
    by_cases hours : cred.id = id ∧ count ≠ 0
    · rw [if_pos hours] at haccepted
      have hcount := honest_count hhonest haccepted
      simp only [undisturbed, haccepted, Option.isNone_some, Bool.false_or, Bool.and_eq_true,
        decide_eq_true_eq] at hu
      obtain ⟨hnewest, hall⟩ := hu
      refine h.accept haccepted hours.1 hours.2 hfinishes rfl hpresent (hnewest ▸ hcount) ?_
      intro m st hst
      simpa using Dict.all_get hall hst
    · rw [if_neg hours] at haccepted
      refine h.move haccepted hfinishes rfl (fun _ hx => hx) (by rw [hn]; rfl) ?_
        fun cred' hcred' => ?_
      · simpa [waiting] using hours
      · obtain rfl := Option.some.inj hcred'
        exact hpresent

theorem Counted.step (h : Counted id tr s) (hm : Moves w s e s') (hhonest : honest P e = true)
    (hu : undisturbed id s e = true) : Counted id (tr ++ [e]) s' := by
  cases hm with
  | authorize | begin | redeem | confirm | mint => exact h.idle rfl rfl rfl
  | @finish n t body hclock hn =>
    refine h.move rfl rfl rfl (fun _ hx => hx) (by rw [hn, Option.all_none]) ?_ fun cred hcred => ?_
    · cases (Ceremony.takeChallenge s.challenges t body).1 <;> rfl
    · cases hres : (Ceremony.takeChallenge s.challenges t body).1 <;> rw [hres] at hcred <;>
        cases hcred
  | @lookup n req challenge hn =>
    refine h.move rfl rfl rfl (fun _ hx => hx) (by rw [hn]; rfl) ?_ fun cred hcred => ?_
    · cases Ceremony.lookup s.credentials req <;> rfl
    · cases hres : Ceremony.lookup s.credentials req with
      | error resp =>
        rw [hres] at hcred
        cases hcred
      | ok found =>
        rw [hres] at hcred
        obtain rfl := Option.some.inj hcred
        have hget := Ceremony.lookup_ok hres
        rw [s.credentials.keyed _ _ hget, hget]
        exact Option.some_ne_none _
  | @verify n uuid answer req challenge cred assertion hn =>
    exact h.verify hn rfl hhonest hu
  | @update n req cred count hn =>
    by_cases hwait : waiting id (.verified req cred count) = true
    · exact h.write hn hwait
    · obtain ⟨c, hc⟩ := Option.ne_none_iff_exists'.mp (h.known n _ cred hn rfl)
      refine h.move rfl rfl ?_ (fun x hx => persist_present hc hx) (by simpa [hn] using hwait) rfl
        fun cred' hcred' => ?_
      · exact storedCount_other hc hwait
      · cases hcred'
  | @take n t req cred hclock hn =>
    refine h.move rfl rfl rfl (fun _ hx => hx) (by rw [hn]; rfl) ?_ fun cred' hcred' => ?_
    · cases (Ceremony.takePending s.pending t req.rid).1 <;> rfl
    · cases hres : (Ceremony.takePending s.pending t req.rid).1 <;> rw [hres] at hcred' <;>
        cases hcred'
  | @issue n authTime sweepAt t raw cred authz since hn =>
    refine h.move rfl rfl rfl (fun _ hx => hx) (by rw [hn]; rfl) rfl fun cred' hcred' => ?_
    cases hcred'

/-- No step takes the stored counter back. -/
lemma Counted.storedCount_le (h : Counted id tr s) (hm : Moves w s e s') :
    storedCount s id ≤ storedCount s' id := by
  cases hm with
  | @update n req cred count hn =>
    obtain ⟨c, hc⟩ := Option.ne_none_iff_exists'.mp (h.known n _ cred hn rfl)
    by_cases hwait : waiting id (.verified req cred count) = true
    · obtain ⟨hid, hne⟩ : cred.id = id ∧ count ≠ 0 := by simpa [waiting] using hwait
      rw [storedCount_update hc hne, if_pos hid.symm]
      exact (h.newest n req cred count hn hwait).1.le
    · exact (storedCount_other hc hwait).ge
  | _ => exact le_rfl

end counted

section runs
variable {w : Gateway} {P : Webauthn.Platform} {id : Bytes} {registered : Credentials} {clock : ℤ}
  {tr₀ tr : List Event} {s₀ s : State}

lemma Counted.start : Counted id [] (.start clock registered) where
  known n st cred h := by simp [State.start] at h
  nodup := List.nodup_nil
  newest n req cred count h := by simp [State.start] at h
  single n n' st st' h := by simp [State.start] at h
  written c h := by simp at h

/-- The Guard is honest, and what it compares with is the newest count of the credential. -/
def Newest (P : Webauthn.Platform) (id : Bytes) (s : State) (e : Event) : Prop :=
  honest P e = true ∧ undisturbed id s e = true

instance : Decidable (Newest P id s e) := inferInstanceAs (Decidable (_ ∧ _))

theorem counted_run
    (h : Run (Guarded (Newest P id) (StepOf w.step)) (.start clock registered) tr s) :
    Counted id tr s := by
  refine h.invariant (Counted id) .start fun tr s e s' _ ih hs => ?_
  obtain ⟨⟨hhonest, hu⟩, hstep⟩ := hs
  exact ih.step (moves_of_step hstep) hhonest hu

/-- As long as accepted counters are compared with the newest one, the stored counter never
decreases and no counter is accepted twice. -/
theorem clone_detection
    (h₀ : Run (Guarded (Newest P id) (StepOf w.step)) (.start clock registered) tr₀ s₀)
    (h : Run (Guarded (Newest P id) (StepOf w.step)) s₀ tr s) :
    storedCount s₀ id ≤ storedCount s id ∧ ((tr₀ ++ tr).filterMap (acceptedCount id)).Nodup := by
  refine ⟨?_, (counted_run (h₀.append h)).nodup⟩
  refine h.invariant (fun _ t => storedCount s₀ id ≤ storedCount t id) le_rfl ?_
  intro tr' t e t' hr ih hs
  exact ih.trans ((counted_run (h₀.append hr)).storedCount_le (moves_of_step hs.2))

end runs

namespace Worked
open Sessions.Worked (moment)

def digests : List (Bytes × Bytes) :=
  [(rpID, rpDigest),
    (clientData 1, bigEndian 32 0xee7773c6bcd74c9b97de32799aefee7a6f5404e40b19e6c0cd6cd6b57446fe2c),
    (clientData 2, bigEndian 32 0x4db55d9b1e047e49d4aef7a79312f4103e7930df3656ff583ea62cb30d6863c3),
    (clientData 3, bigEndian 32 0x1f0e3eff8ec598ab5fbf2f805c3d21adc36c5d84c810876eb0952ea1a7ec9989)]

/-- What an assertion is signed over. -/
def signed (n : ℕ) : Bytes := authData (counter n) ++ (digests.lookup (clientData n)).getD []

def signedDigest : ℕ → Bytes
  | 1 => bigEndian 32 0x407ac0728501885f2ec8733936181c4944af78e25786b3ccec6e8dcbb062c5e4
  | 2 => bigEndian 32 0x3effd7f50bee4c62c5080f8eba541ebb73f37faa9d2a14c529ae9ea7b44854c8
  | _ => bigEndian 32 0x2082e6b42aeb03d3da1734515e99c56793c8bb03d896f46c6198a4bd66747eab

/-- The two numbers of a signature. -/
def numbers : ℕ → ℕ × ℕ
  | 1 => (0x8a146327c0f1d46e8adb0af4147494f9e053ab672687dfc3294ef144237b01b5,
    0xadd60c0a9411547e5c9d796921048270787a58c248e2a0b597f7b7d98697ddb1)
  | 2 => (0x6c12533ca19303d368a86397d52b603cdd6082e7bacda4b032ba5df684685f36,
    0x53e95eeca58f3541d49109535c8455c8588aaebb7efbdc2bc35b209bc8513792)
  | _ => (0x5e1e8de598f6743b34678bd6d653fe3a3bfcc02c56e3b98229d023ca0bc6b391,
    0x0a33ed43abadc8e8905e0af23455b719d08dc6ddd55033077b10d01620a75113)

def client (n : ℕ) : Json :=
  .strings [(ascii "type", ascii "webauthn.get"), (ascii "challenge", Base64.encode (challenge n)),
    (ascii "origin", origin)]

def platform : Webauthn.Platform where
  toCrypto := Crypto.ofTables
    (digests ++ [1, 2, 3].map fun n => (signed n, signedDigest n))
    ([1, 2, 3].map fun n => (P256.doubled, signedDigest n, numbers n))
  parseJson b := ([1, 2, 3].find? fun n => clientData n = b).map client
  keyFromSec1 b := if b = publicKey then some P256.doubled else none
  sigFromDer b := ([1, 2, 3].find? fun n => signature n = b).map numbers
  sigFromSlice _ := none

def codeRaw (n : ℕ) : Bytes := List.replicate 32 (UInt8.ofNat (32 + n))

/-- Three requests read the counter before any of them writes one. -/
def overlapping : List Event :=
  started (moment 0) 1 ++ started (moment 0) 2 ++ started (moment 0) 3 ++
    [accepted 1 4, accepted 2 4, accepted 3 4, .update 1]

def overtaken : List Event :=
  .update 2 :: .update 3 :: completed (moment 0) 1 (codeRaw 1) ++
    completed (moment 0) 2 (codeRaw 2) ++ completed (moment 0) 3 (codeRaw 3)

/-- The copy first, then the authenticator. -/
def oneByOne : List Event :=
  started (moment 0) 2 ++ accepted 2 4 :: .update 2 :: completed (moment 0) 2 (codeRaw 2)

def another : List Event :=
  started (moment 0) 1 ++ accepted 1 5 :: .update 1 :: completed (moment 0) 1 (codeRaw 1)

end Worked

/-- Overlapping requests take the stored counter back, and accept one counter twice. -/
theorem clone_undetected : ∃ s₀ s,
    Run (Guarded (fun _ e => honest Worked.platform e = true) (StepOf Worked.gateway.step))
      (.start (Sessions.Worked.moment 0) Worked.registered) Worked.overlapping s₀ ∧
    Run (Guarded (fun _ e => honest Worked.platform e = true) (StepOf Worked.gateway.step))
      s₀ Worked.overtaken s ∧
    storedCount s (ascii "cred") < storedCount s₀ (ascii "cred") ∧
    ¬ ((Worked.overlapping ++ Worked.overtaken).filterMap
      (acceptedCount (ascii "cred"))).Nodup := by
  let f := fun s e => if honest Worked.platform e = true then Worked.gateway.step s e else none
  have hrun : (Worked.overlapping.foldlM f
      (.start (Sessions.Worked.moment 0) Worked.registered)).any (fun s₀ =>
        (Worked.overtaken.foldlM f s₀).any fun s =>
          storedCount s (ascii "cred") < storedCount s₀ (ascii "cred")) = true := by
    decide +kernel
  obtain ⟨s₀, h₀, hrest⟩ := (Option.any_eq_true _ _).mp hrun
  obtain ⟨s, h, hless⟩ := (Option.any_eq_true _ _).mp hrest
  exact ⟨s₀, s, (Run.of_foldlM h₀).guarded, (Run.of_foldlM h).guarded, of_decide_eq_true hless,
    by decide +kernel⟩

theorem clone_detection_worked : ∃ s₀ s,
    Run (Guarded (Newest Worked.platform (ascii "cred")) (StepOf Worked.gateway.step))
      s₀ Worked.another s ∧
    storedCount s₀ (ascii "cred") ≤ storedCount s (ascii "cred") ∧
    ((Worked.oneByOne ++ Worked.another).filterMap (acceptedCount (ascii "cred"))).Nodup := by
  let f := fun s e => if Newest Worked.platform (ascii "cred") s e then Worked.gateway.step s e
    else none
  have hrun : (Worked.oneByOne.foldlM f
      (.start (Sessions.Worked.moment 0) Worked.registered)).any (fun s₀ =>
        (Worked.another.foldlM f s₀).isSome) = true := by
    decide +kernel
  obtain ⟨s₀, h₀, hrest⟩ := (Option.any_eq_true _ _).mp hrun
  obtain ⟨s, h⟩ := Option.isSome_iff_exists.mp hrest
  obtain ⟨hle, hnodup⟩ := clone_detection (Run.of_foldlM h₀).guarded (Run.of_foldlM h).guarded
  exact ⟨s₀, s, (Run.of_foldlM h).guarded, hle, hnodup⟩

end AiAuth.Flow
