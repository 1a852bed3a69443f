import AiAuth.Library.Machine
import AiAuth.Library.Thinned
import AiAuth.ServerFlow

/-!
# Sweeps

Entries that have expired wait in the stores for the next sweep. When they go, and which of them
go first, is not seen in any answer.
-/
namespace AiAuth.Server
open Library Oidc Login

/-- A request, or the loss of entries that have expired before `now`: any of them, in any store. -/
inductive Input
  | request (x : Surroundings) (r : Request)
  | sweep (now : ℤ) (pending challenges codes : Bytes → Bool)

def Stores.sweep (s : Stores) (now : ℤ) (pending challenges codes : Bytes → Bool) : Stores :=
  { s with
    login := { s.login with
      pending := ⟨s.login.pending.requests.retain fun k e => !(pending k && e.expiresAt < now)⟩
      challenges := ⟨s.login.challenges.items.retain fun k e =>
        !(challenges k && e.expiresAt < now)⟩
      codes := ⟨s.login.codes.codes.retain fun k e => !(codes k && e.expiresAt < now)⟩ } }

namespace Config
variable (cfg : Config)

/-- The answer to a request; a sweep has none. -/
def input (P : Dpop.Platform) (J : Tokens.Codec) (s : Stores) : Input → Option Response × Stores
  | .request x r => (some (cfg.serve P J s x r).1, (cfg.serve P J s x r).2)
  | .sweep now pending challenges codes => (none, s.sweep now pending challenges codes)

/-- What the clock shows for an input. -/
def clock : Input → List ℤ
  | .request x r => (cfg.endpoint r).elim [] (Handler.readings x)
  | .sweep now _ _ _ => [now]

end Config

def Input.isRequest : Input → Bool
  | .request _ _ => true
  | .sweep _ _ _ _ => false

/-- Stores that differ in entries that have expired before `t`. -/
structure Alike (t : ℤ) (s s' : Login.Stores) : Prop where
  pending : Thinned id (fun e => e.expiresAt < t) s.pending.requests s'.pending.requests
  challenges : Thinned id (fun e => e.expiresAt < t) s.challenges.items s'.challenges.items
  codes : Thinned id (fun e => e.expiresAt < t) s.codes.codes s'.codes.codes
  credentials : s.credentials = s'.credentials

lemma Alike.refl (t : ℤ) (s : Login.Stores) : Alike t s s where
  pending := .refl _
  challenges := .refl _
  codes := .refl _
  credentials := rfl

section stores
variable {t now sweepAt : ℤ} {raw : Option Bytes}

/-- What is lost had expired. -/
lemma retain_expired {α : Type} {d d' : Dict Bytes α} {expiresAt : α → ℤ} {picks : Bytes → Bool}
    (h : Thinned id (fun e => expiresAt e < t) d d') (ht : t ≤ now) :
    Thinned id (fun e => expiresAt e < now)
      (d.retain fun k e => !(picks k && expiresAt e < now)) d' := by
  refine (h.mono fun e he => lt_of_lt_of_le he ht).retain fun k e hp => ?_
  rw [Bool.not_eq_false', Bool.and_eq_true] at hp
  exact of_decide_eq_true hp.2

/-- What a redemption makes of the entry that it finds. -/
def settled (now : ℤ) (clientID redirectURI : Bytes) : Option CodeEntry → Except CodeError Grant
  | none => .error .unknown
  | some e =>
    if e.expiresAt < now then .error .unknown
    else if e.grant.clientID ≠ clientID then .error .client
    else if e.grant.redirectURI ≠ redirectURI then .error .redirect
    else .ok e.grant

/-- A code that has expired is answered like one that never was. -/
lemma redeem_alike {s s' : CodeStore} {code clientID redirectURI : Bytes}
    (h : Thinned id (fun e => e.expiresAt < t) s.codes s'.codes) (ht : t ≤ now) :
    (s.redeem now code clientID redirectURI).1 = (s'.redeem now code clientID redirectURI).1 ∧
      Thinned id (fun e => e.expiresAt < t) (s.redeem now code clientID redirectURI).2.codes
        (s'.redeem now code clientID redirectURI).2.codes := by
  have hask : ∀ s : CodeStore, (s.redeem now code clientID redirectURI).1 =
      settled now clientID redirectURI (s.codes.get code) := by
    intro s
    unfold CodeStore.redeem
    cases s.codes.get code with
    | none => rfl
    | some e =>
      dsimp only [settled]
      split_ifs <;> rfl
  have hdead : ∀ e : CodeEntry, e.expiresAt < t →
      settled now clientID redirectURI (some e) = settled now clientID redirectURI none :=
    fun e he => if_pos (he.trans_le ht)
  refine ⟨?_, h.remove_both CodeStore.get_redeem CodeStore.get_redeem⟩
  rw [hask, hask, ← h.answer code _ hdead, Option.map_id_fun, id]

lemma issue_alike {s s' : CodeStore} {g : Grant}
    (h : Thinned id (fun e => e.expiresAt < t) s.codes s'.codes) :
    (s.issue sweepAt now raw g).1 = (s'.issue sweepAt now raw g).1 ∧
      Thinned id (fun e => e.expiresAt < t) (s.issue sweepAt now raw g).2.codes
        (s'.issue sweepAt now raw g).2.codes := by
  cases raw with
  | none => exact ⟨rfl, h⟩
  | some raw => exact ⟨rfl, (h.retain_both fun _ _ => rfl).set _ rfl⟩

/-- What is taken of the request that is found. -/
def waiting (now : ℤ) (found : Option PendingEntry) : Option AuthzRequest :=
  found.bind fun e => if e.expiresAt < now then none else some e.req

/-- The same for the requests that wait for their login. -/
lemma take_alike {s s' : PendingStore} {rid : Bytes}
    (h : Thinned id (fun e => e.expiresAt < t) s.requests s'.requests) (ht : t ≤ now) :
    (s.take now rid).1 = (s'.take now rid).1 ∧
      Thinned id (fun e => e.expiresAt < t) (s.take now rid).2.requests
        (s'.take now rid).2.requests := by
  have hask : ∀ s : PendingStore, (s.take now rid).1 = waiting now (s.requests.get rid) := by
    intro s
    unfold PendingStore.take
    cases s.requests.get rid <;> rfl
  have hdead : ∀ e : PendingEntry, e.expiresAt < t → waiting now (some e) = waiting now none :=
    fun e he => if_pos (he.trans_le ht)
  refine ⟨?_, h.remove_both PendingStore.get_take PendingStore.get_take⟩
  rw [hask, hask, ← h.answer rid _ hdead, Option.map_id_fun, id]

lemma put_alike {s s' : PendingStore} {req : AuthzRequest}
    (h : Thinned id (fun e => e.expiresAt < t) s.requests s'.requests) :
    (s.put now raw req).1 = (s'.put now raw req).1 ∧
      Thinned id (fun e => e.expiresAt < t) (s.put now raw req).2.requests
        (s'.put now raw req).2.requests := by
  cases raw with
  | none => exact ⟨rfl, h⟩
  | some raw => exact ⟨rfl, (h.retain_both fun _ _ => rfl).set _ rfl⟩

/-- What is taken of the challenge that is found. -/
def challenged (now : ℤ) : Option Challenge → Except LoginError Bytes
  | none => .error .noChallenge
  | some ch => if ch.expiresAt < now then .error .noChallenge else .ok ch.value

/-- And for the challenges. -/
lemma takeChallenge_alike {c c' : Challenges} {body : Option FinishRequest}
    (h : Thinned id (fun e => e.expiresAt < t) c.items c'.items) (ht : t ≤ now) :
    (Ceremony.takeChallenge c now body).1 = (Ceremony.takeChallenge c' now body).1 ∧
      Thinned id (fun e => e.expiresAt < t) (Ceremony.takeChallenge c now body).2.items
        (Ceremony.takeChallenge c' now body).2.items := by
  cases body with
  | none => exact ⟨rfl, h⟩
  | some req =>
    have hask : ∀ c : Challenges,
        (c.take now req.rid).1 = challenged now (c.items.get req.rid) := by
      intro c
      unfold Challenges.take
      cases c.items.get req.rid <;> rfl
    have hdead : ∀ e : Challenge, e.expiresAt < t →
        challenged now (some e) = challenged now none :=
      fun e he => if_pos (he.trans_le ht)
    have hsame : (c.take now req.rid).1 = (c'.take now req.rid).1 := by
      rw [hask, hask, ← h.answer req.rid _ hdead, Option.map_id_fun, id]
    have hleft : Thinned id (fun e => e.expiresAt < t) (c.take now req.rid).2.items
        (c'.take now req.rid).2.items :=
      h.remove_both Challenges.get_take Challenges.get_take
    unfold Ceremony.takeChallenge
    dsimp only
    revert hsame hleft
    rcases c.take now req.rid with ⟨res, d⟩
    rcases c'.take now req.rid with ⟨res', d'⟩
    rintro rfl hleft
    cases res with
    | error e => exact ⟨rfl, hleft⟩
    | ok challenge => exact ⟨rfl, hleft⟩

lemma begin_alike {c : Ceremony} {s s' : Challenges} {rid : Bytes}
    (h : Thinned id (fun e => e.expiresAt < t) s.items s'.items) :
    (c.begin s now raw rid).1 = (c.begin s' now raw rid).1 ∧
      Thinned id (fun e => e.expiresAt < t) (c.begin s now raw rid).2.items
        (c.begin s' now raw rid).2.items := by
  unfold Ceremony.begin
  split_ifs
  · exact ⟨rfl, h⟩
  · cases raw with
    | none => exact ⟨rfl, h⟩
    | some raw => exact ⟨rfl, (h.retain_both fun _ _ => rfl).set _ rfl⟩

end stores

/-! ## The handlers -/

section handlers
variable {t : ℤ} {s s' : Login.Stores} {clk : Login.Readings} {guard : Verifier} {c : Ceremony}

lemma issueCode_alike {codes codes' : CodeStore} {sweepAt now : ℤ} {raw : Option Bytes}
    {authz : AuthzRequest} {g : Grant}
    (h : Thinned id (fun e => e.expiresAt < t) codes.codes codes'.codes) :
    (Ceremony.issueCode codes sweepAt now raw authz g).1 =
        (Ceremony.issueCode codes' sweepAt now raw authz g).1 ∧
      Thinned id (fun e => e.expiresAt < t)
        (Ceremony.issueCode codes sweepAt now raw authz g).2.codes
        (Ceremony.issueCode codes' sweepAt now raw authz g).2.codes := by
  obtain ⟨hsame, hleft⟩ := @issue_alike t now sweepAt raw codes codes' g h
  unfold Ceremony.issueCode
  revert hsame hleft
  rcases codes.issue sweepAt now raw g with ⟨code, left⟩
  rcases codes'.issue sweepAt now raw g with ⟨code', left'⟩
  rintro rfl hleft
  cases code with
  | none => exact ⟨rfl, hleft⟩
  | some code =>
    dsimp only
    cases redirectWithCode authz.redirectURI authz.state code with
    | none => exact ⟨rfl, hleft⟩
    | some target => exact ⟨rfl, hleft⟩

lemma takePending_alike {p p' : PendingStore} {now : ℤ} {rid : Bytes}
    (h : Thinned id (fun e => e.expiresAt < t) p.requests p'.requests) (ht : t ≤ now) :
    (Ceremony.takePending p now rid).1 = (Ceremony.takePending p' now rid).1 ∧
      Thinned id (fun e => e.expiresAt < t) (Ceremony.takePending p now rid).2.requests
        (Ceremony.takePending p' now rid).2.requests := by
  obtain ⟨hsame, hleft⟩ := @take_alike t now p p' rid h ht
  unfold Ceremony.takePending
  revert hsame hleft
  rcases p.take now rid with ⟨authz, left⟩
  rcases p'.take now rid with ⟨authz', left'⟩
  rintro rfl hleft
  cases authz with
  | none => exact ⟨rfl, hleft⟩
  | some authz => exact ⟨rfl, hleft⟩

lemma conclude_alike {req : FinishRequest} {challenge : Bytes} {cred : Credential}
    {assertion : CryptoService.Assertion} (h : Alike t s s') (ht : t ≤ clk.pending) :
    (c.conclude guard s clk req challenge cred assertion).1 =
        (c.conclude guard s' clk req challenge cred assertion).1 ∧
      Alike t (c.conclude guard s clk req challenge cred assertion).2
        (c.conclude guard s' clk req challenge cred assertion).2 := by
  unfold Ceremony.conclude
  cases Ceremony.judge (guard (c.ask challenge cred assertion)) with
  | error resp => exact ⟨rfl, h⟩
  | ok count =>
    obtain ⟨hsame, hpending⟩ := @takePending_alike t _ _ clk.pending req.rid h.pending ht
    dsimp only
    rw [h.credentials]
    revert hsame hpending
    rcases Ceremony.takePending s.pending clk.pending req.rid with ⟨res, left⟩
    rcases Ceremony.takePending s'.pending clk.pending req.rid with ⟨res', left'⟩
    rintro rfl hpending
    cases res with
    | error resp => exact ⟨rfl, hpending, h.challenges, h.codes, rfl⟩
    | ok authz =>
      obtain ⟨hresp, hcodes⟩ := @issueCode_alike t _ _ clk.sweep clk.code clk.raw authz
        (Ceremony.grant cred authz clk.authTime) h.codes
      exact ⟨hresp, hpending, h.challenges, hcodes, rfl⟩

lemma finish_alike {body : Option FinishRequest} (h : Alike t s s') (hchallenge : t ≤ clk.challenge)
    (hpending : t ≤ clk.pending) :
    (c.finish guard s clk body).1 = (c.finish guard s' clk body).1 ∧
      Alike t (c.finish guard s clk body).2 (c.finish guard s' clk body).2 := by
  obtain ⟨hsame, hleft⟩ := @takeChallenge_alike t clk.challenge _ _ body h.challenges hchallenge
  unfold Ceremony.finish
  revert hsame hleft
  rcases Ceremony.takeChallenge s.challenges clk.challenge body with ⟨res, left⟩
  rcases Ceremony.takeChallenge s'.challenges clk.challenge body with ⟨res', left'⟩
  rintro rfl hleft
  cases res with
  | error resp => exact ⟨rfl, h.pending, hleft, h.codes, h.credentials⟩
  | ok taken =>
    dsimp only
    rw [h.credentials]
    cases Ceremony.lookup s'.credentials taken.1 with
    | error resp => exact ⟨rfl, h.pending, hleft, h.codes, rfl⟩
    | ok found => exact conclude_alike ⟨h.pending, hleft, h.codes, rfl⟩ hpending

lemma authorize_alike {a : Authorize} {p p' : PendingStore} {now : ℤ} {raw : Option Bytes}
    {params : Url.Values} (h : Thinned id (fun e => e.expiresAt < t) p.requests p'.requests) :
    (a.serveHTTP p now raw params).1 = (a.serveHTTP p' now raw params).1 ∧
      Thinned id (fun e => e.expiresAt < t) (a.serveHTTP p now raw params).2.requests
        (a.serveHTTP p' now raw params).2.requests := by
  unfold Authorize.serveHTTP
  cases validateAuthz params a.clients.lookup with
  | error err => exact ⟨rfl, h⟩
  | ok req =>
    obtain ⟨hsame, hleft⟩ := @put_alike t now raw p p' req h
    dsimp only
    revert hsame hleft
    rcases p.put now raw req with ⟨id, left⟩
    rcases p'.put now raw req with ⟨id', left'⟩
    rintro rfl hleft
    cases id with
    | none => exact ⟨rfl, hleft⟩
    | some id => exact ⟨rfl, hleft⟩

lemma token_alike {T : Token} {P : Dpop.Platform} {J : Tokens.Codec} {codes codes' : CodeStore}
    {seen : Dpop.ReplayCache} {clk : TokenReadings} {raw : Option Bytes} {seed : Bytes}
    {r : TokenRequest} (h : Thinned id (fun e => e.expiresAt < t) codes.codes codes'.codes)
    (ht : t ≤ clk.redeem) :
    (T.serveHTTP P J codes seen clk raw seed r).1 = (T.serveHTTP P J codes' seen clk raw seed r).1 ∧
      Thinned id (fun e => e.expiresAt < t) (T.serveHTTP P J codes seen clk raw seed r).2.1.codes
        (T.serveHTTP P J codes' seen clk raw seed r).2.1.codes ∧
      (T.serveHTTP P J codes seen clk raw seed r).2.2 =
        (T.serveHTTP P J codes' seen clk raw seed r).2.2 := by
  unfold Token.serveHTTP Token.exchange
  cases Token.parse r with
  | error resp => exact ⟨rfl, h, rfl⟩
  | ok f =>
    obtain ⟨hsame, hleft⟩ := @redeem_alike t clk.redeem _ _ f.code f.clientID f.redirectURI h ht
    unfold Token.redeem
    dsimp only
    revert hsame hleft
    rcases codes.redeem clk.redeem f.code f.clientID f.redirectURI with ⟨res, left⟩
    rcases codes'.redeem clk.redeem f.code f.clientID f.redirectURI with ⟨res', left'⟩
    rintro rfl hleft
    cases res with
    | error e => exact ⟨rfl, hleft, rfl⟩
    | ok grant =>
      dsimp only
      cases verifyPKCE P.toCrypto.sha256 f.verifier grant.codeChallenge with
      | error e => exact ⟨rfl, hleft, rfl⟩
      | ok u =>
        dsimp only
        cases T.confirm P seen clk.proof clk.cache r with
        | mk res seen =>
          cases res with
          | error resp => exact ⟨rfl, hleft, rfl⟩
          | ok confirm =>
            dsimp only
            cases T.mint P.toCrypto J clk.issue raw seed grant confirm with
            | error resp => exact ⟨rfl, hleft, rfl⟩
            | ok token => exact ⟨rfl, hleft, rfl⟩

end handlers

section requests
variable {cfg : Config} {P : Dpop.Platform} {J : Tokens.Codec} {t : ℤ} {s s' : Stores}
  {x : Surroundings} {r : Request} {h : Handler}

lemma handler_alike (hs : Alike t s.login s'.login) (hseen : s.seen = s'.seen)
    (ht : ∀ u ∈ h.readings x, t ≤ u) :
    (h.serve P J s x r).1 = (h.serve P J s' x r).1 ∧
      Alike t (h.serve P J s x r).2.login (h.serve P J s' x r).2.login ∧
      (h.serve P J s x r).2.seen = (h.serve P J s' x r).2.seen := by
  cases h with
  | healthz version => exact ⟨rfl, hs, hseen⟩
  | readyz version guard => exact ⟨rfl, hs, hseen⟩
  | authorize a =>
    obtain ⟨hsame, hleft⟩ := @authorize_alike t a _ _ x.now x.raw (Url.parseQuery r.url.rawQuery)
      hs.pending
    exact ⟨hsame, ⟨hleft, hs.challenges, hs.codes, hs.credentials⟩, hseen⟩
  | token T =>
    obtain ⟨hsame, hleft, hsame'⟩ := @token_alike t T P J _ _ s'.seen x.exchange x.raw x.seed
      r.exchange hs.codes (ht _ List.mem_cons_self)
    dsimp only [Handler.serve]
    rw [hseen]
    exact ⟨hsame, ⟨hs.pending, hs.challenges, hleft, hs.credentials⟩, hsame'⟩
  | discovery doc => exact ⟨rfl, hs, hseen⟩
  | jwks keys => exact ⟨rfl, hs, hseen⟩
  | begin c =>
    obtain ⟨hsame, hleft⟩ := @begin_alike t x.now x.raw c _ _
      ((Url.parseQuery r.url.rawQuery).get (ascii "rid")) hs.challenges
    exact ⟨hsame, ⟨hs.pending, hleft, hs.codes, hs.credentials⟩, hseen⟩
  | finish c =>
    obtain ⟨hsame, hleft⟩ := @finish_alike t _ _ x.finish (verifyPasskey x.rpc x.uuid) c r.finish hs
      (ht _ List.mem_cons_self) (ht _ (List.mem_cons_of_mem _ List.mem_cons_self))
    exact ⟨hsame, hleft, hseen⟩

/-- What has expired is not seen in the answer to a request. -/
lemma serve_alike (hs : Alike t s.login s'.login) (hseen : s.seen = s'.seen)
    (ht : ∀ u ∈ cfg.clock (.request x r), t ≤ u) :
    (cfg.serve P J s x r).1 = (cfg.serve P J s' x r).1 ∧
      Alike t (cfg.serve P J s x r).2.login (cfg.serve P J s' x r).2.login ∧
      (cfg.serve P J s x r).2.seen = (cfg.serve P J s' x r).2.seen := by
  replace ht : ∀ u ∈ (cfg.endpoint r).elim [] (Handler.readings x), t ≤ u := ht
  unfold Config.endpoint at ht
  unfold Config.serve Config.serveMux
  by_cases hstar : r.url.path = ascii "*"
  · rw [if_pos hstar, if_pos hstar]
    exact ⟨rfl, hs, hseen⟩
  · rw [if_neg hstar] at ht ⊢
    rw [if_neg hstar]
    cases hfound : findHandler cfg.patterns r with
    | handler h =>
      rw [hfound] at ht
      obtain ⟨hsame, hleft, hseen'⟩ := @handler_alike P J t s s' x r h hs hseen ht
      dsimp only
      rw [hsame]
      exact ⟨rfl, hleft, hseen'⟩
    | redirect u => exact ⟨rfl, hs, hseen⟩
    | notAllowed ms => exact ⟨rfl, hs, hseen⟩
    | notFound => exact ⟨rfl, hs, hseen⟩

/-- A sweep loses only what has expired. -/
lemma sweep_alike {now : ℤ} {pending challenges codes : Bytes → Bool}
    (hs : Alike t s.login s'.login) (ht : t ≤ now) :
    Alike now (s.sweep now pending challenges codes).login s'.login where
  pending := retain_expired hs.pending ht
  challenges := retain_expired hs.challenges ht
  codes := retain_expired hs.codes ht
  credentials := hs.credentials

end requests

/-- Sweeps are not seen: whichever entries are lost once they have expired, and whenever, every
request is answered as it would be without. -/
theorem sweeps_invisible (cfg : Config) (P : Dpop.Platform) (J : Tokens.Codec) (s : Stores)
    {is : List Input} (hclock : (is.flatMap cfg.clock).Pairwise (· ≤ ·)) :
    (Machine.transcript (cfg.input P J) s is).filter (fun y => y.1.isRequest) =
      Machine.transcript (cfg.input P J) s (is.filter Input.isRequest) := by
  obtain ⟨t, ht⟩ : ∃ t : ℤ, ∀ u ∈ is.flatMap cfg.clock, t ≤ u := by
    cases hreadings : is.flatMap cfg.clock with
    | nil => exact ⟨0, fun u hu => absurd hu List.not_mem_nil⟩
    | cons t us =>
      rw [hreadings] at hclock
      refine ⟨t, fun u hu => ?_⟩
      rcases List.mem_cons.mp hu with rfl | hu
      · exact le_rfl
      · exact (List.pairwise_cons.mp hclock).1 u hu
  refine (Machine.transcript_filter (p := Input.isRequest)
    (R := fun is (s s' : Stores) => ∃ t : ℤ, Alike t s.login s'.login ∧ s.seen = s'.seen ∧
      (is.flatMap cfg.clock).Pairwise (· ≤ ·) ∧ ∀ u ∈ is.flatMap cfg.clock, t ≤ u)
    ⟨t, .refl t s.login, rfl, hclock, ht⟩ ?_ ?_).1
  · rintro i is s s' ⟨t, hs, hseen, hclock, ht⟩ hp
    cases i with
    | request x r => cases hp
    | sweep now pending challenges codes =>
      rw [List.flatMap_cons] at hclock ht
      obtain ⟨hlater, hrest⟩ := List.pairwise_cons.mp hclock
      exact ⟨now, sweep_alike hs (ht now List.mem_cons_self), hseen, hrest, hlater⟩
  · rintro i is s s' ⟨t, hs, hseen, hclock, ht⟩ hp
    cases i with
    | sweep now pending challenges codes => cases hp
    | request x r =>
      rw [List.flatMap_cons] at hclock ht
      obtain ⟨hsame, hleft, hseen'⟩ := @serve_alike cfg P J t s s' x r hs hseen
        fun u hu => ht u (List.mem_append_left _ hu)
      exact ⟨congrArg some hsame, t, hleft, hseen', (List.pairwise_append.mp hclock).2.1,
        fun u hu => ht u (List.mem_append_right _ hu)⟩

namespace Worked
open Flow.Worked
open Sessions.Worked (moment)

/-- Everything happens one hour later. -/
def late : Surroundings :=
  { surroundings none with
    now := moment 3600
    finish := ⟨moment 3600, moment 3600, moment 3600, moment 3600, moment 3600, none⟩
    exchange := ⟨moment 3600, moment 3600, moment 3600, moment 3600⟩ }

/-- One login that leaves a code, and another one that leaves a request and its challenge. -/
def abandoned : List Input :=
  [.request (surroundings (some (pendingRaw 2))) (request get (ascii "/authorize") params.encode),
    .request (surroundings (some (Flow.Worked.challenge 2)))
      (request get (ascii "/login/begin") (Url.Values.encode [(ascii "rid", rid 2)])),
    .request (surroundings (some Gateway.Worked.codeRaw))
      { request post (ascii "/login/finish") [] with finish := some (body 2) },
    .request (surroundings (some (pendingRaw 3))) (request get (ascii "/authorize") params.encode),
    .request (surroundings (some (Flow.Worked.challenge 3)))
      (request get (ascii "/login/begin") (Url.Values.encode [(ascii "rid", rid 3)]))]

def swept : Input := .sweep (moment 3600) (fun _ => true) (fun _ => true) fun _ => true

/-- What was left is asked for: the challenge with its request, and the code. -/
def asked : List Input :=
  [.request late { request post (ascii "/login/finish") [] with finish := some (body 3) },
    .request late { request post (ascii "/token") [] with
      form := Gateway.Worked.exchange.form, dpop := Gateway.Worked.exchange.dpop }]

/-- The entries of the three stores. -/
def entries (is : List Input) : ℕ × ℕ × ℕ :=
  let s := Machine.after (config.input gateway.platform gateway.codec) (.new registered) is
  (s.login.pending.requests.size, s.login.challenges.items.size, s.login.codes.codes.size)

end Worked

theorem sweeps_invisible_worked : Worked.entries Worked.abandoned = (1, 1, 1) ∧
    Worked.entries (Worked.abandoned ++ [Worked.swept]) = (0, 0, 0) ∧
    (Machine.transcript (Worked.config.input Flow.Worked.gateway.platform Flow.Worked.gateway.codec)
        (.new Flow.Worked.registered) (Worked.abandoned ++ [Worked.swept] ++ Worked.asked)).filter
          (fun y => y.1.isRequest) =
      Machine.transcript
        (Worked.config.input Flow.Worked.gateway.platform Flow.Worked.gateway.codec)
        (.new Flow.Worked.registered) (Worked.abandoned ++ Worked.asked) :=
  ⟨by decide +kernel, by decide +kernel, sweeps_invisible _ _ _ _ (by decide +kernel)⟩

end AiAuth.Server
