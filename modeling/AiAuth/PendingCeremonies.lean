import AiAuth.CodeFlow

/-!
# Ceremonies and the requests they are for

A challenge is meant for an authorization request that waits in the store. The two stores are
written by different requests, and a begin request may name anything.
-/
namespace AiAuth.Flow
open Library Oidc Login CryptoService

variable (w : Gateway)

/-- A request was stored under `rid`, and at `t` it has neither been taken nor expired. -/
def Waits (tr : List Event) (rid : Bytes) (t : ℤ) : Prop :=
  ∃ pre post t₀ raw params authz, tr = pre ++ .authorize t₀ (some raw) params :: post ∧
    validateAuthz params w.authorize.clients.lookup = .ok authz ∧ Base64.encode raw = rid ∧
    t ≤ t₀ + pendingTTL ∧ ∀ n t' a, .take n t' rid a ∉ post

/-- Finish `n` took a challenge under an id that was given to an authorization request. -/
def ForAccepted (tr : List Event) (n : ℕ) : Prop :=
  ∃ t req c, .finish n t (some req) (some c) ∈ tr ∧ ∃ e ∈ tr, ∃ authz, Accepted w req.rid authz e

/-- Ceremonies are for authorization requests: challenges for those that wait, and questions to
the Guard and new counters for those that were accepted. -/
structure Named (clock : ℤ) (registered : Credentials) (tr : List Event) : Prop where
  begins : ∀ pre t raw rid post, tr = pre ++ .begin t (some raw) rid :: post → rid ≠ [] →
    Waits w pre rid t
  verifies : ∀ pre n id uuid ask answer post, tr = pre ++ .verify n id uuid ask answer :: post →
    ForAccepted w pre n
  counts : ∀ pre e post s s', tr = pre ++ e :: post →
    Run (StepOf w.step) (.start clock registered) pre s → w.step s e = some s' →
    s'.credentials ≠ s.credentials → ∃ n, e = .update n ∧ ForAccepted w pre n

/-- A begin request that issues a challenge names a request that is in the store and has not
expired. -/
def peeked (s : State) : Event → Bool
  | .begin t raw rid =>
    raw.isNone || rid = [] || (s.pending.requests.get rid).any fun e => t ≤ e.expiresAt
  | _ => true

/-! ## The store and the trace -/

section store
variable {w : Gateway} {registered : Credentials} {s s' : State} {e : Event} {tr : List Event}
  {rid : Bytes} {t : ℤ}

/-- What a step can do to the store of authorization requests. -/
lemma pending_cases (h : Moves w s e s') :
    (∃ t raw params, e = .authorize t raw params ∧ s.fresh raw = true ∧ s'.clock = t ∧
      s'.drawn = s.draw raw ∧ s'.pending = (w.authorize.serveHTTP s.pending t raw params).2) ∨
    (∃ n t rid a, e = .take n t rid a ∧ s'.pending = (s.pending.take t rid).2) ∨
    (∀ t raw params, e ≠ .authorize t raw params) ∧ (∀ n t rid a, e ≠ .take n t rid a) ∧
      s'.pending = s.pending := by
  cases h with
  | authorize hclock hfresh => exact .inl ⟨_, _, _, rfl, hfresh, rfl, rfl, rfl⟩
  | @take n t req cred hclock hn =>
    exact .inr (.inl ⟨n, t, req.rid, _, rfl, Ceremony.takePending_snd⟩)
  | _ => exact .inr (.inr ⟨nofun, nofun, rfl⟩)

/-- Steps do not turn the clock back. -/
lemma clock_le (h : Moves w s e s') : s.clock ≤ s'.clock := by
  cases h with
  | lookup _ => exact le_rfl
  | verify _ => exact le_rfl
  | update _ => exact le_rfl
  | issue _ _ _ hsweep ht _ => exact hsweep.trans ht
  | confirm _ _ ht => exact ht
  | authorize ht _ => exact ht
  | begin ht _ => exact ht
  | finish ht _ => exact ht
  | take ht _ => exact ht
  | redeem ht _ => exact ht
  | mint _ ht _ => exact ht

/-- Only an update changes a counter. -/
lemma credentials_cases (h : Moves w s e s') (hne : s'.credentials ≠ s.credentials) :
    ∃ n req cred count, e = .update n ∧ s.finishes.get n = some (.verified req cred count) := by
  cases h with
  | @update n req cred count hn => exact ⟨n, req, cred, count, rfl, hn⟩
  | _ => exact absurd rfl hne

lemma Waits.mono (h : Waits w tr rid t) (he : ∀ n t' a, e ≠ .take n t' rid a) :
    Waits w (tr ++ [e]) rid t := by
  obtain ⟨pre, post, t₀, raw, params, authz, rfl, hvalid, hrid, ht, htake⟩ := h
  refine ⟨pre, post ++ [e], t₀, raw, params, authz, by simp, hvalid, hrid, ht,
    fun n t' a hmem => ?_⟩
  rcases List.mem_append.mp hmem with hmem | hmem
  · exact htake n t' a hmem
  · exact he n t' a (List.mem_singleton.mp hmem).symm

/-- What waits after a step waited before, unless the step stored it. -/
lemma Waits.of_snoc (h : Waits w (tr ++ [e]) rid t) :
    (∃ t₀ raw params authz, e = .authorize t₀ (some raw) params ∧
      validateAuthz params w.authorize.clients.lookup = .ok authz ∧ Base64.encode raw = rid ∧
      t ≤ t₀ + pendingTTL) ∨
    Waits w tr rid t ∧ ∀ n t' a, e ≠ .take n t' rid a := by
  obtain ⟨pre, post, t₀, raw, params, authz, htr, hvalid, hrid, ht, htake⟩ := h
  rcases List.eq_nil_or_concat post with rfl | ⟨post, b, rfl⟩
  · obtain ⟨-, he⟩ := List.append_inj' htr rfl
    exact .inl ⟨t₀, raw, params, authz, List.singleton_inj.mp he, hvalid, hrid, ht⟩
  · rw [List.concat_eq_append, ← List.cons_append, ← List.append_assoc] at htr
    obtain ⟨rfl, he⟩ := List.append_inj' htr rfl
    obtain rfl := List.singleton_inj.mp he
    refine .inr ⟨⟨pre, post, t₀, raw, params, authz, rfl, hvalid, hrid, ht, fun n t' a hmem => ?_⟩,
      fun n t' a he => ?_⟩
    · exact htake n t' a (by simp [hmem])
    · exact htake n t' a (by simp [he])

/-- What the store holds, in terms of the trace. -/
structure Stored (w : Gateway) (tr : List Event) (s : State) : Prop where
  drawn : ∀ t raw params, .authorize t (some raw) params ∈ tr → raw ∈ s.drawn
  waits : ∀ rid e, s.pending.requests.get rid = some e → Waits w tr rid e.expiresAt
  held : ∀ rid t, s.clock ≤ t → Waits w tr rid t →
    ∃ e, s.pending.requests.get rid = some e ∧ t ≤ e.expiresAt

lemma stored_start (clock : ℤ) : Stored w [] (.start clock registered) where
  drawn := by simp
  waits := by simp [State.start, PendingStore.new]
  held := by simp [Waits]

/-- An authorization request that passes the rails is stored, and nothing else is new. -/
lemma get_serveHTTP_cases {p : PendingStore} {t₀ : ℤ} {raw : Option Bytes} {params : Url.Values}
    {rid : Bytes} {e : PendingEntry}
    (h : (w.authorize.serveHTTP p t₀ raw params).2.requests.get rid = some e) :
    (∃ b authz, raw = some b ∧ validateAuthz params w.authorize.clients.lookup = .ok authz ∧
      Base64.encode b = rid ∧ e.expiresAt = t₀ + pendingTTL) ∨ p.requests.get rid = some e := by
  unfold Authorize.serveHTTP at h
  cases hvalid : validateAuthz params w.authorize.clients.lookup with
  | error err =>
    rw [hvalid] at h
    exact .inr h
  | ok authz =>
    rw [hvalid] at h
    cases raw with
    | none => exact .inr h
    | some b =>
      rcases Dict.get_of_retain_set h with ⟨hrid, rfl⟩ | hold
      · exact .inl ⟨b, authz, rfl, rfl, hrid.symm, rfl⟩
      · exact .inr hold

/-- A request that passes the rails is there afterwards. -/
lemma get_serveHTTP_self {p : PendingStore} {t₀ : ℤ} {b : Bytes} {params : Url.Values}
    {authz : AuthzRequest} (h : validateAuthz params w.authorize.clients.lookup = .ok authz) :
    (w.authorize.serveHTTP p t₀ (some b) params).2.requests.get (Base64.encode b) =
      some ⟨authz, t₀ + pendingTTL⟩ := by
  unfold Authorize.serveHTTP
  rw [h]
  exact Dict.get_set_self _ _ _

lemma Stored.drawn_snoc (h : Stored w tr s) (hm : Moves w s e s') (t : ℤ) (b : Bytes)
    (params : Url.Values) (hmem : .authorize t (some b) params ∈ tr ++ [e]) : b ∈ s'.drawn := by
  rcases List.mem_append.mp hmem with hold | hnew
  · exact drawn_mono hm b (h.drawn t b params hold)
  · obtain rfl := List.mem_singleton.mp hnew
    cases hm with
    | authorize _ _ => exact List.mem_append_left _ (by simp)

lemma stored_step (h : Stored w tr s) (hm : Moves w s e s') : Stored w (tr ++ [e]) s' := by
  have hclock := clock_le hm
  have hdrawn := h.drawn_snoc hm
  rcases pending_cases hm with ⟨t₀, raw, params, rfl, hfresh, ht₀, hdraw, hpending⟩ |
    ⟨n, t₀, rid₀, a, rfl, hpending⟩ | ⟨hauth, htake, hpending⟩
  · refine ⟨hdrawn, fun rid e he => ?_, fun rid t ht hw => ?_⟩
    · rw [hpending] at he
      rcases get_serveHTTP_cases he with ⟨b, authz, rfl, hvalid, hrid, hexp⟩ | hold
      · exact ⟨tr, [], t₀, b, params, authz, rfl, hvalid, hrid, hexp.le, by simp⟩
      · exact (h.waits rid e hold).mono nofun
    · rw [hpending]
      rcases hw.of_snoc with ⟨t₁, b, params', authz, he, hvalid, rfl, ht'⟩ | ⟨hw, -⟩
      · obtain ⟨rfl, rfl, rfl⟩ := Event.authorize.inj he
        exact ⟨_, get_serveHTTP_self hvalid, ht'⟩
      · obtain ⟨e, he, hexp⟩ := h.held rid t (hclock.trans ht) hw
        refine ⟨e, Authorize.get_serveHTTP he ((ht₀ ▸ ht).trans hexp) fun b hb hrid => ?_, hexp⟩
        obtain ⟨pre, post, t₁, b', params', authz, rfl, -, hrid', -⟩ := hw
        obtain rfl : b = b' := Base64.encode_injective (hrid.trans hrid'.symm)
        rw [Option.mem_def.mp hb] at hfresh
        exact absurd (h.drawn t₁ b params' (by simp)) (by simpa [State.fresh] using hfresh)
  · refine ⟨hdrawn, fun rid e he => ?_, fun rid t ht hw => ?_⟩
    · rw [hpending, PendingStore.get_take] at he
      split_ifs at he with hrid
      refine (h.waits rid e he).mono fun n' t' a' heq => hrid ?_
      exact (Event.take.inj heq).2.2.1.symm
    · rcases hw.of_snoc with ⟨t₁, b, params', authz, he, -⟩ | ⟨hw, hother⟩
      · cases he
      · have hrid : rid ≠ rid₀ := fun heq => hother n t₀ a (by rw [heq])
        rw [hpending, PendingStore.get_take, if_neg hrid]
        exact h.held rid t (hclock.trans ht) hw
  · refine ⟨hdrawn, fun rid e' he => ?_, fun rid t ht hw => ?_⟩
    · rw [hpending] at he
      exact (h.waits rid e' he).mono fun n t' a => htake n t' rid a
    · rcases hw.of_snoc with ⟨t₁, b, params', authz, he, -⟩ | ⟨hw, -⟩
      · exact absurd he (hauth t₁ (some b) params')
      · rw [hpending]
        exact h.held rid t (hclock.trans ht) hw

lemma stored_run {clock : ℤ} (hr : Run (StepOf w.step) (.start clock registered) tr s) :
    Stored w tr s :=
  hr.invariant (Stored w) (stored_start clock) fun _ _ _ _ _ hi hs =>
    stored_step hi (moves_of_step hs)

/-- What the trace says waits is what a look into the store finds. -/
lemma waits_iff (h : Stored w tr s) (ht : s.clock ≤ t) :
    Waits w tr rid t ↔ ∃ e, s.pending.requests.get rid = some e ∧ t ≤ e.expiresAt := by
  refine ⟨h.held rid t ht, ?_⟩
  rintro ⟨e, he, hexp⟩
  obtain ⟨pre, post, t₀, raw, params, authz, htr, hvalid, hrid, hexp', htake⟩ := h.waits rid e he
  exact ⟨pre, post, t₀, raw, params, authz, htr, hvalid, hrid, hexp.trans hexp', htake⟩

end store

/-! ## Ceremonies -/

section ceremonies
variable {w : Gateway} {registered : Credentials} {clock : ℤ} {s s' : State} {tr : List Event}
  {n : ℕ} {req : FinishRequest} {challenge : Bytes}

/-- A finish request that goes on found a challenge under its id. -/
lemma challenge_of_finish {t : ℤ} (h : Moves w s (.finish n t (some req) (some challenge)) s') :
    ∃ c, s.challenges.items.get req.rid = some c := by
  generalize he : Event.finish n t (some req) (some challenge) = e at h
  cases h with
  | @finish n' t' body hclock hnew =>
    obtain ⟨rfl, rfl, rfl, hres⟩ := Event.finish.inj he
    obtain ⟨⟨req', c⟩, hok, rfl⟩ := Option.map_eq_some_iff.mp hres.symm
    cases htake : Ceremony.takeChallenge s.challenges t (some req) with
    | mk res challenges =>
      rw [htake] at hok
      cases res with
      | error resp => cases hok
      | ok taken =>
        obtain rfl := Option.some.inj hok
        obtain ⟨hbody, htaken⟩ := Ceremony.takeChallenge_ok htake
        obtain rfl := Option.some.inj hbody
        obtain ⟨c', hc', -⟩ := Challenges.take_ok htaken
        exact ⟨c', hc'⟩
  | _ => cases he

/-- The challenge of a finish request was issued by a begin request for the same id. -/
lemma begin_of_took (hr : Run (StepOf w.step) (.start clock registered) tr s)
    (h : Took tr n req challenge) :
    ∃ pre t raw post, tr = pre ++ .begin t (some raw) req.rid :: post ∧ req.rid ≠ [] := by
  obtain ⟨before, after, t, c, rfl, -, -, hlast⟩ := h
  obtain ⟨s₁, s₂, hbefore, hstep, -⟩ := hr.at_label before after rfl
  obtain ⟨c', hc'⟩ := challenge_of_finish (moves_of_step hstep)
  obtain ⟨a, ha, t', rfl, -⟩ := hlast.mem
  obtain ⟨pre, post, rfl⟩ := List.append_of_mem ha
  exact ⟨pre, t', c.value, _, List.append_assoc _ _ _, ((inv_run hbefore).challenges _ _ hc').1⟩

/-- If every challenge is for a request that waits, every finish request is for one that was
accepted. -/
lemma forAccepted_of_took (hr : Run (StepOf w.step) (.start clock registered) tr s)
    (hbegins : ∀ pre t raw rid post, tr = pre ++ .begin t (some raw) rid :: post → rid ≠ [] →
      Waits w pre rid t) (h : Took tr n req challenge) : ForAccepted w tr n := by
  obtain ⟨pre, t, raw, post, htr, hrid⟩ := begin_of_took hr h
  obtain ⟨pre', post', t₀, b, params, authz, rfl, hvalid, hb, -⟩ :=
    hbegins pre t raw _ post htr hrid
  obtain ⟨before, after, t', c, htr', -⟩ := h
  refine ⟨t', req, challenge, htr' ▸ by simp, .authorize t₀ (some b) params, htr ▸ by simp, authz,
    t₀, b, params, rfl, hvalid, hb⟩

end ceremonies

/-- Ceremonies are for authorization requests exactly in the runs in which every begin request
that issues a challenge names one that waits. -/
theorem named_iff {w : Gateway} {registered : Credentials} {clock : ℤ} {tr : List Event}
    {s : State} (hr : Run (StepOf w.step) (.start clock registered) tr s) :
    Named w clock registered tr ↔
      Run (Guarded (fun s e => peeked s e = true) (StepOf w.step)) (.start clock registered) tr s := by
  constructor
  · intro h
    refine hr.guarded_of_labels fun pre e post t t' htr hpre hstep => ?_
    cases e with
    | begin t₀ raw rid =>
      cases raw with
      | none => rfl
      | some raw =>
        by_cases hrid : rid = []
        · simp [peeked, hrid]
        · have hclock : t.clock ≤ t₀ := by
            cases moves_of_step hstep with
            | begin hclock _ => exact hclock
          obtain ⟨e, he, hexp⟩ :=
            (waits_iff (stored_run hpre) hclock).mp (h.begins pre t₀ raw rid post htr hrid)
          simp [peeked, he, hexp]
    | _ => rfl
  · intro hg
    have hbegins : ∀ pre t raw rid post, tr = pre ++ .begin t (some raw) rid :: post → rid ≠ [] →
        Waits w pre rid t := by
      intro pre t raw rid post htr hrid
      obtain ⟨s₁, s₂, hpre, ⟨hpeek, hstep⟩, -⟩ := hg.at_label pre post htr
      have hclock : s₁.clock ≤ t := by
        cases moves_of_step hstep with
        | begin hclock _ => exact hclock
      refine (waits_iff (stored_run hpre.of_guarded) hclock).mpr ?_
      simpa [peeked, hrid, Option.any_eq_true] using hpeek
    have hcut : ∀ pre post, tr = pre ++ post → ∀ pre' t raw rid post',
        pre = pre' ++ .begin t (some raw) rid :: post' → rid ≠ [] → Waits w pre' rid t := by
      rintro pre post htr pre' t raw rid post' rfl hrid
      exact hbegins pre' t raw rid (post' ++ post) (by simp [htr]) hrid
    refine ⟨hbegins, fun pre n id uuid ask answer post htr => ?_,
      fun pre e post s₁ s₂ htr hpre hstep hne => ?_⟩
    · obtain ⟨s₁, s₂, hpre, hstep, -⟩ := hr.at_label pre post htr
      generalize he : Event.verify n id uuid ask answer = e at hstep
      cases moves_of_step hstep with
      | @verify n' uuid' answer' req challenge cred assertion hn =>
        obtain ⟨rfl, -⟩ := Event.verify.inj he
        exact forAccepted_of_took hpre (hcut pre _ htr) ((inv_run hpre).finishes n _ hn).1
      | _ => cases he
    · obtain ⟨n, req, cred, count, rfl, hn⟩ := credentials_cases (moves_of_step hstep) hne
      obtain ⟨challenge, assertion, uuid, resp, htook, -⟩ := (inv_run hpre).finishes n _ hn
      exact ⟨n, rfl, forAccepted_of_took hpre (hcut pre _ htr) htook⟩

/-! ## A ceremony for nothing -/

namespace Worked
open Sessions.Worked (moment)

/-- The id that the caller makes up. -/
def nobody : Bytes := ascii "x"

def uninvited : FinishRequest := { body 2 with rid := nobody }

/-- A login that no authorization request asked for, up to the Guard's verdict. -/
def unasked : List Event :=
  [.begin (moment 0) (some (challenge 2)) nobody,
    .finish 0 (moment 0) (some uninvited) (some (challenge 2)), .lookup 0,
    .verify 0 (ascii "cred") uuid (gateway.ceremony.ask (challenge 2) passkey (assertion 2))
      (some ⟨verdictVerified, [], counter 2⟩)]

/-- A login that one did ask for, up to its challenge. -/
def asked : List Event :=
  [.authorize (moment 0) (some (pendingRaw 2)) params,
    .begin (moment 0) (some (challenge 2)) (rid 2)]

end Worked

theorem named_iff_worked :
    Named Worked.gateway (Sessions.Worked.moment 0) Worked.registered Worked.asked := by
  obtain ⟨s, hr⟩ := Run.exists_of_foldlM_guarded (fun s e => peeked s e = true) Worked.gateway.step
    (.start (Sessions.Worked.moment 0) Worked.registered) Worked.asked (by decide +kernel)
  exact (named_iff hr.of_guarded).mpr hr

/-- The Guard verifies an assertion, and the counter moves, for an id that was made up. -/
theorem unasked_login :
    ¬ ∀ (w : Gateway) (clock : ℤ) (registered : Credentials) (tr : List Event) (s : State),
      Run (StepOf w.step) (.start clock registered) tr s → Named w clock registered tr := by
  intro h
  let counter := fun s : State => s.credentials.items.get (ascii "cred")
  let moves := fun s : State =>
    (Worked.gateway.step s (.update 0)).any fun s' => decide (counter s' ≠ counter s)
  have hrun : (Worked.unasked.foldlM Worked.gateway.step
      (.start (Sessions.Worked.moment 0) Worked.registered)).any moves = true := by
    decide +kernel
  obtain ⟨s, hr, hs⟩ := Run.exists_of_foldlM_any _ moves _ _ hrun
  obtain ⟨s', hstep, hne⟩ := (Option.any_eq_true _ _).mp hs
  have hnamed := h _ _ _ _ s' (hr.snoc hstep)
  obtain ⟨n, -, haccepted⟩ := hnamed.counts _ _ [] _ _ rfl hr hstep fun heq =>
    of_decide_eq_true hne (congrArg (fun c : Credentials => c.items.get (ascii "cred")) heq)
  obtain ⟨t, req, c, -, e, he, authz, t₀, raw, params, hauth, -⟩ := haccepted
  rw [hauth] at he
  simp [Worked.unasked] at he

end AiAuth.Flow
