import AiAuth.FailedLogins
import AiAuth.Library.Machine
import AiAuth.ServerFlow

/-!
# Where codes are sent

The answer to a finished login names a target for the browser. It is a redirect that the client has
registered, and brings it the code and the state of its own request.
-/
namespace AiAuth
open Library

/-- Where an answer sends the browser. -/
def Response.redirectTo (r : Response) : Option Bytes :=
  match r.body with
  | .json doc => (doc.get (ascii "redirect_to")).bind Json.asStr
  | _ => none

namespace Server
open Library.Url Oidc Login

/-- The settings that a redirect with a code carries. -/
def codeValues (code state : Bytes) : Values :=
  (ascii "code", code) :: if state = [] then [] else [(ascii "state", state)]

section target
variable {raw target code state : Bytes} {u : URL}

lemma sorted_codeValues : (codeValues code state).sorted = codeValues code state := by
  have hstate : ascii "code" ≤ ascii "state" := by decide
  refine List.Pairwise.insertionSort_eq ?_
  rw [codeValues]
  by_cases hnil : state = [] <;> simp [hnil, hstate]

/-- The target of a redirect without a query. -/
lemma redirectWithCode_eq (hu : Url.parse raw = some u) (hquery : u.rawQuery = []) :
    redirectWithCode raw state code =
      some { u with rawQuery := (codeValues code state).encode }.string := by
  have hstate : (ascii "code" != ascii "state") = true := by decide
  have hempty : parseQuery u.rawQuery = [] := by
    rw [hquery]
    rfl
  rw [redirectWithCode, redirectWith, hu, Option.map_some, hempty]
  by_cases hnil : state = [] <;> simp [setNonEmpty, Values.set, codeValues, hnil, hstate]

/-- The target reads back as the registered redirect, with the code and the state. A zone outside
ASCII cannot be read back. -/
lemma target_reads (h : validateRedirectURI raw = .ok ())
    (htarget : redirectWithCode raw state code = some target) :
    ∃ u, Url.parse raw = some u ∧ ((∀ c ∈ zoneOf u.host, c < 128) →
      ∃ v, Url.parse target = some v ∧ v.scheme = u.scheme ∧ v.user = u.user ∧ v.host = u.host ∧
        v.path = u.path ∧ parseQuery v.rawQuery = codeValues code state) := by
  obtain ⟨u, -, -, -, -, hu, -⟩ := accepted_url h
  obtain ⟨hquery, ⟨text, hhost⟩, hall⟩ := registered_hierarchical h hu
  rw [redirectWithCode_eq hu hquery] at htarget
  obtain rfl := Option.some.inj htarget
  have hhier := hall (codeValues code state).encode
  have hne : (codeValues code state).encode ≠ [] := encode_ne_nil (by simp [codeValues])
  refine ⟨u, hu, fun hzone => ?_⟩
  obtain ⟨v, hv, hscheme, huser, hhost', hpath, hread⟩ :=
    hhier.parse_string hne (encode_plain _) (parseHost_escape hhost hzone)
  refine ⟨v, hv, hscheme, huser, hhost', hpath, ?_⟩
  rw [hread, parseQuery_encode, sorted_codeValues]

end target

section finish
variable {c : Ceremony} {guard : Verifier} {s : Login.Stores} {clk : Login.Readings}
  {body : Option FinishRequest} {target rid : Bytes} {e : PendingEntry}

lemma nowhere {resp : Response} (hnone : resp.redirectTo = none)
    (h : resp.redirectTo = some target) : False := by
  rw [hnone] at h
  cases h

/-- The refusals on the way send the browser nowhere. -/
lemma redirectTo_fail (status : ℕ) (msg : Bytes) :
    (Ceremony.fail status msg).redirectTo = none := by
  have herror : (ascii "redirect_to" == ascii "error") = false := by decide
  simp [Response.redirectTo, Ceremony.fail, Ceremony.write, Json.strings, Json.get,
    List.lookup_cons, herror]

lemma redirectTo_takeChallenge {challenges : Challenges} {now : ℤ} {resp : Response}
    (h : (Ceremony.takeChallenge challenges now body).1 = .error resp) :
    resp.redirectTo = none := by
  unfold Ceremony.takeChallenge at h
  split at h
  · obtain rfl := Except.error.inj h
    exact redirectTo_fail _ _
  · split at h
    · obtain rfl := Except.error.inj h
      exact redirectTo_fail _ _
    · cases h

lemma redirectTo_lookup {credentials : Credentials} {req : FinishRequest} {resp : Response}
    (h : Ceremony.lookup credentials req = .error resp) : resp.redirectTo = none := by
  unfold Ceremony.lookup at h
  split at h
  · obtain rfl := Except.error.inj h
    exact redirectTo_fail _ _
  · split at h
    · cases h
    · obtain rfl := Except.error.inj h
      exact redirectTo_fail _ _

lemma redirectTo_judge {answer : Option CryptoService.VerifyAssertionResponse} {resp : Response}
    (h : Ceremony.judge answer = .error resp) : resp.redirectTo = none := by
  unfold Ceremony.judge at h
  split at h
  · obtain rfl := Except.error.inj h
    exact redirectTo_fail _ _
  · split_ifs at h
    obtain rfl := Except.error.inj h
    exact redirectTo_fail _ _

/-- The code in the answer is stored with its grant. -/
lemma issueCode_target {codes : CodeStore} {sweepAt now : ℤ} {raw : Option Bytes}
    {authz : AuthzRequest} {g : Grant}
    (h : (Ceremony.issueCode codes sweepAt now raw authz g).1.redirectTo = some target) :
    ∃ code, redirectWithCode authz.redirectURI authz.state code = some target ∧
      (Ceremony.issueCode codes sweepAt now raw authz g).2.codes.get code =
        some ⟨g, now + codeTTL⟩ := by
  unfold Ceremony.issueCode at h ⊢
  cases raw with
  | none => exact (nowhere (redirectTo_fail _ _) h).elim
  | some raw =>
    dsimp only [CodeStore.issue] at h ⊢
    refine ⟨Base64.encode raw, ?_⟩
    cases hto : redirectWithCode authz.redirectURI authz.state (Base64.encode raw) with
    | none =>
      rw [hto] at h
      exact (nowhere (redirectTo_fail _ _) h).elim
    | some target' =>
      rw [hto] at h
      have hsame : target' = target := by
        simpa [Response.redirectTo, Ceremony.write, Json.strings, Json.get, Json.asStr,
          List.lookup_cons] using h
      exact ⟨congrArg some hsame, Dict.get_set_self _ _ _⟩

/-- A finished login took its request from the pending ones, and has stored the code that its
answer sends on. -/
lemma finish_target (h : (c.finish guard s clk body).1.redirectTo = some target) :
    ∃ rid e code cred, s.pending.requests.get rid = some e ∧
      redirectWithCode e.req.redirectURI e.req.state code = some target ∧
      (c.finish guard s clk body).2.codes.codes.get code =
        some ⟨Ceremony.grant cred e.req clk.authTime, clk.code + codeTTL⟩ := by
  unfold Ceremony.finish at h ⊢
  cases htake : Ceremony.takeChallenge s.challenges clk.challenge body with
  | mk res challenges =>
    rw [htake] at h
    cases res with
    | error resp => exact (nowhere (redirectTo_takeChallenge (congrArg Prod.fst htake)) h).elim
    | ok taken =>
      dsimp only at h ⊢
      cases hlookup : Ceremony.lookup s.credentials taken.1 with
      | error resp =>
        rw [hlookup] at h
        exact (nowhere (redirectTo_lookup hlookup) h).elim
      | ok found =>
        rw [hlookup] at h
        dsimp only at h ⊢
        unfold Ceremony.conclude at h ⊢
        cases hjudge : Ceremony.judge (guard (c.ask taken.2 found.1 found.2)) with
        | error resp =>
          rw [hjudge] at h
          exact (nowhere (redirectTo_judge hjudge) h).elim
        | ok count =>
          rw [hjudge] at h
          dsimp only at h ⊢
          cases hpending : Ceremony.takePending s.pending clk.pending taken.1.rid with
          | mk res pending =>
            rw [hpending] at h
            unfold Ceremony.takePending at hpending
            cases htaken : s.pending.take clk.pending taken.1.rid with
            | mk authz left =>
              rw [htaken] at hpending
              cases authz with
              | none =>
                obtain ⟨rfl, rfl⟩ := Prod.mk.inj hpending
                exact (nowhere (redirectTo_fail _ _) h).elim
              | some authz =>
                obtain ⟨rfl, rfl⟩ := Prod.mk.inj hpending
                obtain ⟨e, he, rfl⟩ := PendingStore.take_ok htaken
                obtain ⟨code, hto, hstored⟩ := issueCode_target h
                exact ⟨taken.1.rid, e, code, found.1, he, hto, hstored⟩

lemma get_of_takePending {p left : PendingStore} {now : ℤ} {rid' : Bytes}
    {res : Except Response AuthzRequest} (htake : Ceremony.takePending p now rid' = (res, left))
    (h : left.requests.get rid = some e) : p.requests.get rid = some e := by
  obtain rfl : (Ceremony.takePending p now rid').2 = left := by rw [htake]
  rw [Ceremony.takePending_snd, PendingStore.get_take] at h
  split_ifs at h
  exact h

/-- A ceremony makes no request pending. -/
lemma finish_pending (h : (c.finish guard s clk body).2.pending.requests.get rid = some e) :
    s.pending.requests.get rid = some e := by
  unfold Ceremony.finish at h
  split at h
  · exact h
  · dsimp only at h
    split at h
    · exact h
    · unfold Ceremony.conclude at h
      split at h
      · exact h
      · dsimp only at h
        split at h
        next hres => exact get_of_takePending hres h
        next hres => exact get_of_takePending hres h

end finish

/-! ## Runs -/

/-- An accepted request has a registered client and one of its redirects. -/
lemma registered_of_valid {clients : Registry} {params : Values} {req : AuthzRequest}
    (h : validateAuthz params clients.lookup = .ok req) :
    ∃ client, clients.lookup req.clientID = some client ∧
      req.redirectURI ∈ client.redirectURIs := by
  rw [validateAuthz_fields h]
  unfold validateAuthz at h
  split at h
  · cases h
  next client hclient =>
    dsimp only at h
    split_ifs at h with hallows
    exact ⟨client, hclient, by simpa [Client.allowsRedirect] using hallows⟩

/-- The request `r` is one for authorization, and is accepted as `req`. -/
def Config.Asked (cfg : Config) (clients : Registry) (r : Request) (req : AuthzRequest) : Prop :=
  cfg.endpoint r = some (.authorize ⟨clients, cfg.loginURL⟩) ∧
    validateAuthz (parseQuery r.url.rawQuery) clients.lookup = .ok req

/-- Whatever is pending was asked for. -/
def Config.AllAsked (cfg : Config) (clients : Registry) (is : List (Surroundings × Request))
    (s : Stores) : Prop :=
  ∀ rid e, s.login.pending.requests.get rid = some e → ∃ i ∈ is, cfg.Asked clients i.2 e.req

section runs
variable {cfg : Config} {P : Dpop.Platform} {J : Tokens.Codec} {clients : Registry} {s : Stores}
  {i : Surroundings × Request} {is : List (Surroundings × Request)} {h : Handler}

lemma allAsked_handler (hof : ∀ a, h = .authorize a → a = ⟨clients, cfg.loginURL⟩)
    (hend : cfg.endpoint i.2 = some h) (hi : i ∈ is) (hs : cfg.AllAsked clients is s) :
    cfg.AllAsked clients is (h.serve P J s i.1 i.2).2 := by
  intro rid e hget
  cases h with
  | authorize a =>
    obtain rfl := hof a rfl
    have hcases : s.login.pending.requests.get rid = some e ∨ cfg.Asked clients i.2 e.req := by
      simp only [Handler.serve] at hget
      unfold Authorize.serveHTTP at hget
      cases hvalid : validateAuthz (parseQuery i.2.url.rawQuery) clients.lookup with
      | error err =>
        rw [hvalid] at hget
        exact .inl hget
      | ok authz =>
        rw [hvalid] at hget
        cases hraw : i.1.raw with
        | none =>
          rw [hraw] at hget
          exact .inl hget
        | some b =>
          rw [hraw] at hget
          rcases Dict.get_of_retain_set hget with ⟨-, rfl⟩ | hold
          · exact .inr ⟨hend, hvalid⟩
          · exact .inl hold
    rcases hcases with hold | hasked
    · exact hs rid e hold
    · exact ⟨i, hi, hasked⟩
  | finish c => exact hs rid e (finish_pending hget)
  | healthz version => exact hs rid e hget
  | readyz version guard => exact hs rid e hget
  | token t => exact hs rid e hget
  | discovery doc => exact hs rid e hget
  | jwks keys => exact hs rid e hget
  | begin c => exact hs rid e hget

/-- The authorization endpoint asks the configured registry. -/
lemma clients_of_endpoint {r : Request} {a : Authorize} (hclients : cfg.clients = some clients)
    (hend : cfg.endpoint r = some (.authorize a)) : a = ⟨clients, cfg.loginURL⟩ := by
  obtain ⟨p, hp, hhandler, -⟩ := mem_patterns hend
  unfold Config.patterns at hp
  rw [hclients] at hp
  cases hsigner : cfg.signer with
  | none =>
    rw [hsigner] at hp
    fin_cases hp <;> cases hhandler
  | some signer =>
    rw [hsigner] at hp
    cases hlogin : cfg.login with
    | none =>
      simp only [Config.flow, hlogin, List.append_nil] at hp
      fin_cases hp <;> cases hhandler
      rfl
    | some c =>
      simp only [Config.flow, hlogin] at hp
      fin_cases hp <;> cases hhandler
      rfl

lemma allAsked_serve (hclients : cfg.clients = some clients) (hi : i ∈ is)
    (hs : cfg.AllAsked clients is s) : cfg.AllAsked clients is (cfg.serve P J s i.1 i.2).2 := by
  cases hend : cfg.endpoint i.2 with
  | none =>
    obtain ⟨hstores, -⟩ := @serve_refused cfg P J i.1 i.2 s hend
    rw [hstores]
    exact hs
  | some h =>
    obtain ⟨hstores, -⟩ := @serve_endpoint cfg P J i.1 i.2 h s hend
    rw [hstores]
    exact allAsked_handler (fun a ha => clients_of_endpoint hclients (ha ▸ hend)) hend hi hs

lemma allAsked_after {registered : Credentials} (hclients : cfg.clients = some clients) :
    cfg.AllAsked clients is
      (Machine.after (fun s i => cfg.serve P J s i.1 i.2) (.new registered) is) := by
  have hstart : cfg.AllAsked clients is (.new registered) := fun rid e hget => by
    rw [show (Stores.new registered).login.pending.requests.get rid = none from Dict.get_empty _]
      at hget
    cases hget
  exact (Machine.transcript_invariant hstart (fun i hi => hi)
    fun s i hs hi => allAsked_serve hclients hi hs).2

end runs

/-- A finished login sends the browser to where its authorization request asked: to a redirect that
its client has registered, with the code that is stored for that request and with its state. -/
theorem code_delivered {cfg : Config} {P : Dpop.Platform} {J : Tokens.Codec} {clients : Registry}
    {regs : List (Client × Except RegisterError Unit)} {registered : Credentials}
    {is : List (Surroundings × Request)} {x : Surroundings} {r : Request} {c : Ceremony}
    {s : Stores} {target : Bytes} (hreg : Run (StepOf Registry.step) .new regs clients)
    (hclients : cfg.clients = some clients)
    (hs : s = Machine.after (fun s i => cfg.serve P J s i.1 i.2) (.new registered) is)
    (hend : cfg.endpoint r = some (.finish c))
    (hanswer : (cfg.serve P J s x r).1.redirectTo = some target) :
    ∃ i ∈ is, ∃ req client code cred u, cfg.Asked clients i.2 req ∧
      clients.lookup req.clientID = some client ∧ req.redirectURI ∈ client.redirectURIs ∧
      (cfg.serve P J s x r).2.login.codes.codes.get code =
        some ⟨Ceremony.grant cred req x.finish.authTime, x.finish.code + codeTTL⟩ ∧
      Url.parse req.redirectURI = some u ∧ ((∀ c ∈ zoneOf u.host, c < 128) →
        ∃ v, Url.parse target = some v ∧ v.scheme = u.scheme ∧ v.user = u.user ∧ v.host = u.host ∧
          v.path = u.path ∧ parseQuery v.rawQuery = codeValues code req.state) := by
  obtain ⟨hstores, -⟩ := @serve_endpoint cfg P J x r _ s hend
  have hfinish : (c.finish (verifyPasskey x.rpc x.uuid) s.login x.finish r.finish).1.redirectTo =
      some target := by
    have hsame : (cfg.serve P J s x r).1.body = _ := serve_body hend
    rw [Response.redirectTo, hsame] at hanswer
    exact hanswer
  obtain ⟨rid, e, code, cred, he, hto, hstored⟩ := finish_target hfinish
  have hasked : cfg.AllAsked clients is s := hs ▸ allAsked_after hclients
  obtain ⟨i, hi, hi'⟩ := hasked rid e he
  obtain ⟨client, hclient, hmem⟩ := registered_of_valid hi'.2
  obtain ⟨u, hu, hread⟩ := target_reads (stored_redirects hreg hclient _ hmem) hto
  refine ⟨i, hi, e.req, client, code, cred, u, hi', hclient, hmem, ?_, hu, hread⟩
  rw [hstores]
  exact hstored

namespace Worked
open Flow.Worked

/-- The requests of the login that come before its last one. -/
def before : List (Surroundings × Request) :=
  (traffic.take 3).map fun e => (e.surroundings, e.request)

def beforeStores : Stores :=
  Machine.after (fun s i => config.serve gateway.platform gateway.codec s i.1 i.2)
    (.new registered) before

def last : Request := { request post (ascii "/login/finish") [] with finish := some (body 2) }

def target : Bytes :=
  ascii "https://app.example/cb?code=" ++ Base64.encode Gateway.Worked.codeRaw ++ ascii "&state=s1"

end Worked

/-- The code that is sent on is the one that has been stored. -/
theorem code_delivered_worked : ∃ i ∈ Worked.before, ∃ req code cred,
    Worked.config.Asked Flow.Worked.clients i.2 req ∧
    (Worked.config.serve Flow.Worked.gateway.platform Flow.Worked.gateway.codec Worked.beforeStores
        (Worked.surroundings (some Gateway.Worked.codeRaw)) Worked.last).2.login.codes.codes.get
      code = some ⟨Ceremony.grant cred req (Sessions.Worked.moment 0),
        Sessions.Worked.moment 0 + codeTTL⟩ := by
  obtain ⟨regs, hreg⟩ := Login.Worked.clients_registered
  have hclients : Worked.config.clients = some Flow.Worked.clients := rfl
  have hstores : Worked.beforeStores = Machine.after
      (fun s i => Worked.config.serve Flow.Worked.gateway.platform Flow.Worked.gateway.codec s
        i.1 i.2) (.new Flow.Worked.registered) Worked.before := by
    rw [Worked.beforeStores]
  have hend : Worked.config.endpoint Worked.last =
      some (.finish Flow.Worked.gateway.ceremony) := rfl
  have hanswer : (Worked.config.serve Flow.Worked.gateway.platform Flow.Worked.gateway.codec
      Worked.beforeStores (Worked.surroundings (some Gateway.Worked.codeRaw))
      Worked.last).1.redirectTo = some Worked.target := by
    decide +kernel
  obtain ⟨i, hi, req, -, code, cred, -, hasked, -, -, hstored, -⟩ :=
    code_delivered hreg hclients hstores hend hanswer
  exact ⟨i, hi, req, code, cred, hasked, hstored⟩

end Server
end AiAuth
