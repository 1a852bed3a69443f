import AiAuth.LoginFlow

/-!
# What a run uses once

Pending ids, challenges and codes are drawn at random, kept in a store, and taken out at most
once; a finish request gets at most one code, and a token request at most one token.
-/
namespace AiAuth.Flow
open Library Oidc Login CryptoService

namespace Event

/-- The pending id that a step consumes. -/
def takenRid : Event → Option Bytes
  | .take _ _ rid (some _) => some rid
  | _ => none

/-- The challenge that a step hands to a finish request. -/
def tookChallenge : Event → Option Bytes
  | .finish _ _ _ challenge => challenge
  | _ => none

/-- The code that a step redeems. -/
def redeemedCode : Event → Option Bytes
  | .redeem _ _ req (some _) => (Token.parse req).toOption.map ExchangeForm.code
  | _ => none

/-- The finish request that is given a code. -/
def issuedBy : Event → Option ℕ
  | .issue n _ _ _ _ _ => some n
  | _ => none

/-- The token request that comes to its last section. -/
def mintedBy : Event → Option ℕ
  | .mint k _ _ _ _ => some k
  | _ => none

end Event

section once
variable {w : Gateway} {tr : List Event} {s s' : State} {e : Event}

lemma drawn_mono (hm : Moves w s e s') : ∀ b ∈ s.drawn, b ∈ s'.drawn := by
  intro b hb
  cases hm with
  | authorize _ _ => exact List.mem_append_right _ hb
  | begin _ _ => exact List.mem_append_right _ hb
  | issue _ _ _ _ _ _ => exact List.mem_append_right _ hb
  | mint _ _ _ => exact List.mem_append_right _ hb
  | _ => exact hb

/-- The id was drawn at random. -/
def Drawn (s : State) (id : Bytes) : Prop := ∃ raw ∈ s.drawn, Base64.encode raw = id

lemma Drawn.mono (hm : Moves w s e s') (id : Bytes) (h : Drawn s id) : Drawn s' id := by
  obtain ⟨raw, hraw, hid⟩ := h
  exact ⟨raw, drawn_mono hm raw hraw, hid⟩

/-- A new value gives a new id. -/
lemma not_drawn {raw : Bytes} (h : s.fresh (some raw) = true) : ¬ Drawn s (Base64.encode raw) := by
  rintro ⟨raw', hraw', heq⟩
  rw [Base64.encode_injective heq] at hraw'
  simp [State.fresh, hraw'] at h

def OnceRid (tr : List Event) (s : State) : Prop :=
  OneTime (tr.filterMap Event.takenRid) (fun rid => s.pending.requests.get rid ≠ none) (Drawn s)

lemma onceRid_step (h : OnceRid tr s) (hm : Moves w s e s') : OnceRid (tr ++ [e]) s' := by
  have hdrawn := Drawn.mono hm
  cases hm with
  | @authorize t raw params _ hfresh =>
    cases hvalid : validateAuthz params w.authorize.clients.lookup with
    | error err =>
      refine h.idle rfl (fun rid hrid => ?_) hdrawn
      simpa [Gateway.onAuthorize, Authorize.serveHTTP, hvalid] using hrid
    | ok authz =>
      cases raw with
      | none =>
        refine h.idle rfl (fun rid hrid => ?_) hdrawn
        simpa [Gateway.onAuthorize, Authorize.serveHTTP, hvalid, PendingStore.put] using hrid
      | some raw =>
        refine h.putAt rfl (not_drawn hfresh) ⟨raw, List.mem_append_left _ (by simp), rfl⟩
          (fun rid hrid => ?_) hdrawn
        simp only [Gateway.onAuthorize, Authorize.serveHTTP, hvalid] at hrid
        obtain ⟨p, hp⟩ := Option.ne_none_iff_exists'.mp hrid
        rcases PendingStore.get_of_put rfl hp with ⟨hnew, -⟩ | hold
        · exact .inr hnew
        · exact .inl (by simp [hold])
  | @take n t req cred _ _ =>
    have hget : ∀ rid, (Gateway.onTake s n t req.rid cred).pending.requests.get rid ≠ none →
        s.pending.requests.get rid ≠ none ∧ rid ≠ req.rid := by
      intro rid hrid
      dsimp only [Gateway.onTake] at hrid
      rw [Ceremony.takePending_snd, PendingStore.get_take] at hrid
      split_ifs at hrid with heq
      · exact absurd rfl hrid
      · exact ⟨hrid, heq⟩
    cases hres : (Ceremony.takePending s.pending t req.rid).1.toOption with
    | none => exact h.idle rfl (fun rid hrid => (hget rid hrid).1) hdrawn
    | some authz =>
      rw [Ceremony.takePending_fst] at hres
      obtain ⟨p, hp, -⟩ := PendingStore.take_ok (Prod.ext hres rfl)
      exact h.useAt rfl (by simp [hp]) hget hdrawn
  | _ => exact h.idle rfl (fun _ hrid => hrid) hdrawn

/-- The value waits in the store. -/
def Offered (s : State) (v : Bytes) : Prop :=
  ∃ rid c, s.challenges.items.get rid = some c ∧ c.value = v

structure OnceChallenge (tr : List Event) (s : State) : Prop where
  once : OneTime (tr.filterMap Event.tookChallenge) (Offered s) (· ∈ s.drawn)
  distinct : ∀ rid rid' c c', s.challenges.items.get rid = some c →
    s.challenges.items.get rid' = some c' → c.value = c'.value → rid = rid'

lemma onceChallenge_begin {t : ℤ} {raw : Option Bytes} {rid : Bytes} (h : OnceChallenge tr s)
    (hfresh : s.fresh raw = true) :
    OnceChallenge (tr ++ [.begin t raw rid]) (w.onBegin s t raw rid) := by
  have hdrawn : ∀ b ∈ s.drawn, b ∈ (w.onBegin s t raw rid).drawn :=
    fun b hb => List.mem_append_right _ hb
  have hidle (hsame : (w.onBegin s t raw rid).challenges = s.challenges) :
      OnceChallenge (tr ++ [.begin t raw rid]) (w.onBegin s t raw rid) := by
    refine ⟨h.once.idle rfl (fun v hv => ?_) hdrawn, ?_⟩
    · unfold Offered at hv
      rwa [hsame] at hv
    · rw [hsame]
      exact h.distinct
  by_cases hempty : rid = []
  · exact hidle (by simp [Gateway.onBegin, Ceremony.begin, hempty])
  · cases raw with
    | none => exact hidle (by simp [Gateway.onBegin, Ceremony.begin, hempty, Challenges.issue])
    | some raw =>
      have hnew : raw ∉ s.drawn := by simpa [State.fresh] using hfresh
      have hget : ∀ rid' c, (w.onBegin s t (some raw) rid).challenges.items.get rid' = some c →
          (rid' = rid ∧ c.value = raw) ∨ s.challenges.items.get rid' = some c := by
        intro rid' c hc
        simp only [Gateway.onBegin, Ceremony.begin, if_neg hempty] at hc
        rcases Challenges.get_of_issue rfl hc with ⟨hrid, rfl⟩ | ⟨-, hold⟩
        · exact .inl ⟨hrid, rfl⟩
        · exact .inr hold
      have hold : ∀ rid' c, s.challenges.items.get rid' = some c → c.value ≠ raw :=
        fun rid' c hc heq => hnew (heq ▸ h.once.drawn c.value ⟨rid', c, hc, rfl⟩)
      refine ⟨h.once.putAt rfl hnew (List.mem_append_left _ (by simp)) ?_ hdrawn, ?_⟩
      · rintro v ⟨rid', c, hc, rfl⟩
        rcases hget rid' c hc with ⟨-, hv⟩ | hc
        · exact .inr hv
        · exact .inl ⟨rid', c, hc, rfl⟩
      · intro rid₁ rid₂ c₁ c₂ hc₁ hc₂ heq
        rcases hget rid₁ c₁ hc₁ with ⟨hrid₁, hv₁⟩ | hold₁ <;>
          rcases hget rid₂ c₂ hc₂ with ⟨hrid₂, hv₂⟩ | hold₂
        · exact hrid₁.trans hrid₂.symm
        · exact absurd (heq.symm.trans hv₁) (hold rid₂ c₂ hold₂)
        · exact absurd (heq.trans hv₂) (hold rid₁ c₁ hold₁)
        · exact h.distinct rid₁ rid₂ c₁ c₂ hold₁ hold₂ heq

lemma onceChallenge_finish {n : ℕ} {t : ℤ} {body : Option FinishRequest}
    (h : OnceChallenge tr s) :
    OnceChallenge (tr ++ [.finish n t body
      ((Ceremony.takeChallenge s.challenges t body).1.toOption.map Prod.snd)])
      (Gateway.onFinish s n t body) := by
  have hget : ∀ rid c, (Gateway.onFinish s n t body).challenges.items.get rid = some c →
      s.challenges.items.get rid = some c := fun rid c hc => Ceremony.takeChallenge_get hc
  refine ⟨?_, fun rid rid' c c' hc hc' =>
    h.distinct rid rid' c c' (hget rid c hc) (hget rid' c' hc')⟩
  cases htake : Ceremony.takeChallenge s.challenges t body with
  | mk res challenges =>
    cases res with
    | error resp =>
      refine h.once.idle rfl ?_ fun _ hb => hb
      rintro v ⟨rid, c, hc, rfl⟩
      exact ⟨rid, c, hget rid c hc, rfl⟩
    | ok taken =>
      obtain ⟨req, challenge⟩ := taken
      obtain ⟨rfl, hok⟩ := Ceremony.takeChallenge_ok htake
      obtain ⟨c, hc, rfl, -⟩ := Challenges.take_ok hok
      refine h.once.useAt rfl ⟨req.rid, c, hc, rfl⟩ ?_ fun _ hb => hb
      rintro v ⟨rid, c', hc', rfl⟩
      have hgone : rid ≠ req.rid := by
        rintro rfl
        simp only [Gateway.onFinish, htake] at hc'
        have hsnd : challenges = (s.challenges.take t req.rid).2 := (congrArg Prod.snd hok).symm
        rw [hsnd, Challenges.get_take, if_pos rfl] at hc'
        cases hc'
      refine ⟨⟨rid, c', hget rid c' hc', rfl⟩, fun heq => hgone ?_⟩
      exact h.distinct rid req.rid c' c (hget rid c' hc') hc heq

lemma onceChallenge_step (h : OnceChallenge tr s) (hm : Moves w s e s') :
    OnceChallenge (tr ++ [e]) s' := by
  have hdrawn := drawn_mono hm
  cases hm with
  | begin _ hfresh => exact onceChallenge_begin h hfresh
  | finish _ _ => exact onceChallenge_finish h
  | _ => exact ⟨h.once.idle rfl (fun _ hv => hv) hdrawn, h.distinct⟩

def OnceCode (tr : List Event) (s : State) : Prop :=
  OneTime (tr.filterMap Event.redeemedCode) (fun code => s.codes.codes.get code ≠ none) (Drawn s)

lemma onceCode_step (h : OnceCode tr s) (hm : Moves w s e s') : OnceCode (tr ++ [e]) s' := by
  have hdrawn := Drawn.mono hm
  cases hm with
  | @issue n authTime sweepAt t raw cred authz since _ _ _ _ _ hfresh =>
    cases raw with
    | none =>
      refine h.idle rfl (fun code hcode => ?_) hdrawn
      simpa [Gateway.onIssue, Ceremony.issueCode_snd, CodeStore.issue] using hcode
    | some raw =>
      refine h.putAt rfl (not_drawn hfresh) ⟨raw, List.mem_append_left _ (by simp), rfl⟩
        (fun code hcode => ?_) hdrawn
      simp only [Gateway.onIssue, Ceremony.issueCode_snd] at hcode
      obtain ⟨c, hc⟩ := Option.ne_none_iff_exists'.mp hcode
      rcases CodeStore.get_of_issue rfl hc with ⟨hnew, -⟩ | hold
      · exact .inr hnew
      · exact .inl (by simp [hold])
  | @redeem k t req _ _ =>
    have hget : ∀ code, (w.onRedeem s k t req).codes.codes.get code ≠ none →
        s.codes.codes.get code ≠ none := by
      intro code hcode
      obtain ⟨c, hc⟩ := Option.ne_none_iff_exists'.mp hcode
      rw [Gateway.redeem_get hc]
      exact Option.some_ne_none c
    cases hres : (w.redeem s.codes t req).1 with
    | error resp => exact h.idle rfl hget hdrawn
    | ok g =>
      obtain ⟨f, c, hf, hc, -⟩ := Gateway.redeem_ok hres
      refine h.useAt (k := f.code) ?_ (by simp [hc]) (fun code hcode => ⟨hget code hcode, ?_⟩)
        hdrawn
      · simp [Event.redeemedCode, Except.toOption, hf]
      · rintro rfl
        dsimp only [Gateway.onRedeem] at hcode
        rw [Gateway.get_redeem hf, if_pos rfl] at hcode
        exact hcode rfl
  | _ => exact h.idle rfl (fun _ hcode => hcode) hdrawn

/-! ## One code for a finish request, one token for a token request -/

section stages
variable {σ : Type*} {d : Dict ℕ σ} {ended st : σ} {n x : ℕ}

/-- The request has begun and has not ended. -/
def Active (d : Dict ℕ σ) (ended : σ) (n : ℕ) : Prop := ∃ st, d.get n = some st ∧ st ≠ ended

lemma active_set (h : Active (d.set n st) ended x) : Active d ended x ∨ x = n := by
  obtain ⟨st', hget, hne⟩ := h
  rcases Dict.get_of_set hget with ⟨hx, -⟩ | ⟨-, hget⟩
  · exact .inr hx
  · exact .inl ⟨st', hget, hne⟩

/-- A request that goes on was active. -/
lemma active_next {st₀ : σ} (hn : d.get n = some st₀) (hst : st₀ ≠ ended)
    (h : Active (d.set n st) ended x) : Active d ended x := by
  rcases active_set h with h | rfl
  · exact h
  · exact ⟨st₀, hn, hst⟩

lemma active_end (h : Active (d.set n ended) ended x) : Active d ended x ∧ x ≠ n := by
  obtain ⟨st', hget, hne⟩ := h
  rcases Dict.get_of_set hget with ⟨-, hst⟩ | ⟨hx, hget⟩
  · exact absurd hst hne
  · exact ⟨⟨st', hget, hne⟩, hx⟩

lemma present_set (h : d.get x ≠ none) : (d.set n st).get x ≠ none := by
  rw [Dict.get_set]
  split_ifs
  · exact Option.some_ne_none st
  · exact h

end stages

def OnceIssue (tr : List Event) (s : State) : Prop :=
  OneTime (tr.filterMap Event.issuedBy) (Active s.finishes .ended) fun n => s.finishes.get n ≠ none

lemma onceIssue_step (h : OnceIssue tr s) (hm : Moves w s e s') : OnceIssue (tr ++ [e]) s' := by
  cases hm with
  | finish _ hnew =>
    exact h.putAt rfl (not_not.mpr hnew) (by simp [Gateway.onFinish]) (fun _ hx => active_set hx)
      fun _ hx => present_set hx
  | lookup hn =>
    exact h.idle rfl (fun _ hx => active_next hn (by simp) hx) fun _ hx => present_set hx
  | verify hn =>
    exact h.idle rfl (fun _ hx => active_next hn (by simp) hx) fun _ hx => present_set hx
  | update hn =>
    exact h.idle rfl (fun _ hx => active_next hn (by simp) hx) fun _ hx => present_set hx
  | take _ hn =>
    exact h.idle rfl (fun _ hx => active_next hn (by simp) hx) fun _ hx => present_set hx
  | issue hn _ _ _ _ _ =>
    exact h.useAt rfl ⟨_, hn, by simp⟩ (fun _ hx => active_end hx) fun _ hx => present_set hx
  | _ => exact h.idle rfl (fun _ hx => hx) fun _ hx => hx

def OnceMint (tr : List Event) (s : State) : Prop :=
  OneTime (tr.filterMap Event.mintedBy) (Active s.exchanges .ended) fun k => s.exchanges.get k ≠ none

lemma onceMint_step (h : OnceMint tr s) (hm : Moves w s e s') : OnceMint (tr ++ [e]) s' := by
  cases hm with
  | redeem _ hnew =>
    exact h.putAt rfl (not_not.mpr hnew) (by simp [Gateway.onRedeem]) (fun _ hx => active_set hx)
      fun _ hx => present_set hx
  | confirm hk _ _ =>
    exact h.idle rfl (fun _ hx => active_next hk (by simp) hx) fun _ hx => present_set hx
  | mint hk _ _ =>
    exact h.useAt rfl ⟨_, hk, by simp⟩ (fun _ hx => active_end hx) fun _ hx => present_set hx
  | _ => exact h.idle rfl (fun _ hx => hx) fun _ hx => hx

/-! ## Every run -/

structure Once (tr : List Event) (s : State) : Prop where
  rid : OnceRid tr s
  challenge : OnceChallenge tr s
  code : OnceCode tr s
  issue : OnceIssue tr s
  mint : OnceMint tr s

theorem once_run {clock : ℤ} {credentials : Credentials}
    (hr : Run (StepOf w.step) (.start clock credentials) tr s) : Once tr s := by
  refine hr.invariant Once ?_ fun tr s e s' _ h hs => ?_
  · refine ⟨.empty ?_, ⟨.empty ?_, ?_⟩, .empty ?_, .empty ?_, .empty ?_⟩ <;>
      simp [State.start, PendingStore.new, Challenges.new, CodeStore.new, Offered, Active]
  · have hm := moves_of_step hs
    exact ⟨onceRid_step h.rid hm, onceChallenge_step h.challenge hm, onceCode_step h.code hm,
      onceIssue_step h.issue hm, onceMint_step h.mint hm⟩

end once
end AiAuth.Flow
