import AiAuth.CodeStores
import AiAuth.DurableRevocation
import AiAuth.SenderConstraint

/-!
# The token endpoint across a fleet

Any number of gateways keep their codes in one database, and each exchanges what any of them has
handed out. A statement may run and its answer be lost, or not run at all; gateways restart, and
rows past their time are deleted. A code is still exchanged once, as it was issued.
-/
namespace AiAuth.Replicas
open Library Oidc
open Fleet (Fate)
open Store (AuthCode storable)
open CodeStores (rowOf entryOf)

/-- The database, the random values drawn for codes, and the proofs each gateway remembers. -/
structure State where
  db : Store.Codes
  drawn : List Bytes
  seen : ℕ → Dpop.ReplayCache

def State.start : State := ⟨.new, [], fun _ => .new Dpop.ReplayCache.capacity⟩

/-- Hand out a code if the database says that it is stored. -/
def issue (fate : Fate) (db : Store.Codes) (now : ℤ) (raw : Option Bytes) (g : Grant) :
    Option Bytes × Store.Codes :=
  let res := Store.CodeAdapter.issue db now raw g
  (if fate = .answered then res.1 else none, if fate.runs then res.2 else db)

/-- Redeem a code in the database and check the verifier against its grant. -/
def redeem (C : Crypto) (fate : Fate) (db : Store.Codes) (now : ℤ) (f : ExchangeForm) :
    Except Response Grant × Store.Codes :=
  let res := Store.CodeAdapter.redeem db now f.code f.clientID f.redirectURI
  let left := if fate.runs then res.2 else db
  match if fate = .answered then res.1 else .error .database with
  | .error _ => (.error Token.invalidGrant, left)
  | .ok grant =>
    match verifyPKCE C.sha256 f.verifier grant.codeChallenge with
    | .error _ => (.error Token.invalidGrant, left)
    | .ok () => (.ok grant, left)

/-- One exchange from start to end: the access token and its scope, or the refusal. -/
def exchange (t : Token) (P : Dpop.Platform) (J : Tokens.Codec) (fate : Fate) (db : Store.Codes)
    (seen : Dpop.ReplayCache) (clk : TokenReadings) (raw : Option Bytes) (seed : Bytes)
    (r : TokenRequest) : Except Response (Bytes × Bytes) × Store.Codes × Dpop.ReplayCache :=
  match Token.parse r with
  | .error resp => (.error resp, db, seen)
  | .ok f =>
    match redeem P.toCrypto fate db clk.redeem f with
    | (.error resp, db) => (.error resp, db, seen)
    | (.ok grant, db) =>
      match t.confirm P seen clk.proof clk.cache r with
      | (.error resp, seen) => (.error resp, db, seen)
      | (.ok confirm, seen) =>
        match t.mint P.toCrypto J clk.issue raw seed grant confirm with
        | .error resp => (.error resp, db, seen)
        | .ok token => (.ok (token, grant.scope), db, seen)

/-- Codes with what the caller is given, exchanges with the gateway they come to and the token they
end in, and the housekeeping. -/
inductive Event
  | issue (fate : Fate) (now : ℤ) (raw : Option Bytes) (g : Grant) (code : Option Bytes)
  | exchange (n : ℕ) (fate : Fate) (clk : TokenReadings) (raw : Option Bytes) (seed : Bytes)
      (r : TokenRequest) (token : Option Bytes)
  | deleteExpired (fate : Fate) (t : ℤ)
  | restart (n : ℕ)

/-- The endpoint that every gateway serves. -/
structure Endpoint where
  token : Token
  platform : Dpop.Platform
  codec : Tokens.Codec

def Endpoint.step (w : Endpoint) (s : State) : Event → Option State
  | .issue fate now raw g code =>
    let res := issue fate s.db now raw g
    if (raw.all fun b => !s.drawn.contains b) ∧ res.1 = code then
      some { s with db := res.2, drawn := raw.toList ++ s.drawn }
    else none
  | .exchange n fate clk raw seed r token =>
    let res := exchange w.token w.platform w.codec fate s.db (s.seen n) clk raw seed r
    if res.1.toOption.map Prod.fst = token then
      some { s with db := res.2.1, seen := Function.update s.seen n res.2.2 }
    else none
  | .deleteExpired fate t =>
    some { s with db := fate.exec s.db (some (s.db.deleteExpired t)) }
  | .restart n => some { s with seen := Function.update s.seen n (.new Dpop.ReplayCache.capacity) }

/-! ## What the trace says is open -/

/-- What a statement that is executed does to the codes. -/
inductive Effect
  | put (code : Bytes) (row : AuthCode)
  | take (code : Bytes)
  | delete (t : ℤ)

namespace Effect

/-- The row of a code after a statement. -/
def apply (code : Bytes) (found : Option AuthCode) : Effect → Option AuthCode
  | put c row => if code = c then some row else found
  | take c => if code = c then none else found
  | delete t => found.filter fun row => !(row.expiresAt < t)

/-- The statement closes a code whose row is `row`. -/
def Closes (code : Bytes) (row : AuthCode) : Effect → Prop
  | put _ _ => False
  | take c => c = code
  | delete t => row.expiresAt < t

end Effect

namespace Event

/-- A statement has no effect where it does not run or a value cannot be stored. -/
def effect : Event → Option Effect
  | .issue fate now (some raw) g _ =>
    if fate.runs ∧ [g.tenantID, g.subjectID, g.clientID, g.redirectURI, g.scope, g.nonce,
        g.codeChallenge].all storable then
      some (.put (Base64.encode raw) (rowOf now g))
    else none
  | .exchange _ fate _ _ _ r _ =>
    (Token.parse r).toOption.bind fun f =>
      if fate.runs ∧ storable f.code then some (.take f.code) else none
  | .deleteExpired fate t => if fate.runs then some (.delete t) else none
  | _ => none

/-- The code that was exchanged for a token. -/
def exchanged : Event → Option Bytes
  | .exchange _ _ _ _ _ r (some _) => (Token.parse r).toOption.map ExchangeForm.code
  | _ => none

end Event

/-- A statement stored the code with its row, and none that was executed since has closed it. -/
def Open (tr : List Event) (code : Bytes) (row : AuthCode) : Prop :=
  LastIs (fun e => ∃ x, e.effect = some x ∧ x.Closes code row)
    (fun e => e.effect = some (.put code row)) tr

/-- The form is one that gets the grant of the row at `now`. -/
structure Fits (C : Crypto) (f : ExchangeForm) (row : AuthCode) (now : ℤ) : Prop where
  inTime : now ≤ row.expiresAt
  client : row.clientID = f.clientID
  redirect : row.redirectURI = f.redirectURI
  verifier : verifyPKCE C.sha256 f.verifier row.codeChallenge = .ok ()

section statements
variable {C : Crypto} {fate : Fate} {db : Store.Codes} {now : ℤ} {f : ExchangeForm} {g : Grant}
  {raw : Bytes} {code clientID redirectURI : Bytes}

/-- What a redemption finds in the database. -/
lemma adapter_ok_iff : (Store.CodeAdapter.redeem db now code clientID redirectURI).1 = .ok g ↔
    storable code = true ∧ ∃ row, db.authCodes.get code = some row ∧ now ≤ row.expiresAt ∧
      row.clientID = clientID ∧ row.redirectURI = redirectURI ∧ (entryOf row).grant = g := by
  unfold Store.CodeAdapter.redeem Store.Codes.redeem
  by_cases hcode : storable code = true
  · cases hrow : db.authCodes.get code with
    | none => simp [hcode]
    | some row =>
      by_cases hexp : row.expiresAt < now
      · simp [hcode, hexp]
      · by_cases hbound : row.clientID = clientID ∧ row.redirectURI = redirectURI
        · simp [hcode, hexp, hbound, Store.Codes.scan, entryOf, not_lt.mp hexp]
        · have hrefused : row.clientID ≠ clientID ∨ row.redirectURI ≠ redirectURI :=
            not_and_or.mp hbound
          simp only [hcode, hexp, Store.Codes.scan, hrefused]
          simp only [Bool.not_true, Bool.false_eq_true, if_false, if_true, reduceCtorEq, false_iff]
          rintro ⟨-, row', hsome, -, hclient, hredirect, -⟩
          obtain rfl := Option.some.inj hsome
          exact hbound ⟨hclient, hredirect⟩
  · simp [hcode]

/-- A grant is got from an answer of the database, for a row that the form fits. -/
lemma redeem_ok_iff : (redeem C fate db now f).1 = .ok g ↔
    fate = .answered ∧ storable f.code = true ∧ ∃ row, db.authCodes.get f.code = some row ∧
      Fits C f row now ∧ (entryOf row).grant = g := by
  by_cases hfate : fate = .answered
  · have hanswer : (redeem C fate db now f).1 = .ok g ↔
        (Store.CodeAdapter.redeem db now f.code f.clientID f.redirectURI).1 = .ok g ∧
          verifyPKCE C.sha256 f.verifier g.codeChallenge = .ok () := by
      unfold redeem
      dsimp only
      rw [if_pos hfate]
      cases hres : (Store.CodeAdapter.redeem db now f.code f.clientID f.redirectURI).1 with
      | error err => simp
      | ok found =>
        cases hverify : verifyPKCE C.sha256 f.verifier found.codeChallenge with
        | error err =>
          simp only [hverify, reduceCtorEq, false_iff, not_and, Except.ok.injEq]
          rintro rfl hok
          rw [hverify] at hok
          cases hok
        | ok u =>
          simp only [hverify, Except.ok.injEq, iff_self_and]
          rintro rfl
          exact hverify
    rw [hanswer, adapter_ok_iff]
    constructor
    · rintro ⟨⟨hcode, row, hrow, htime, hclient, hredirect, rfl⟩, hverify⟩
      exact ⟨hfate, hcode, row, hrow, ⟨htime, hclient, hredirect, hverify⟩, rfl⟩
    · rintro ⟨-, hcode, row, hrow, hfits, rfl⟩
      exact ⟨⟨hcode, row, hrow, hfits.inTime, hfits.client, hfits.redirect, rfl⟩, hfits.verifier⟩
  · unfold redeem
    simp [hfate]

lemma redeem_snd : (redeem C fate db now f).2 =
    if fate.runs then (Store.CodeAdapter.redeem db now f.code f.clientID f.redirectURI).2
    else db := by
  unfold redeem
  dsimp only
  split
  · rfl
  · split <;> rfl

/-- An attempt that is executed takes the code away, whatever comes of it. -/
lemma get_redeem (h : db.authCodes.get f.code ≠ none → storable f.code = true) :
    (redeem C fate db now f).2.authCodes.get code =
      if fate.runs ∧ code = f.code then none else db.authCodes.get code := by
  rw [redeem_snd]
  cases fate.runs with
  | false => simp
  | true =>
    rw [if_pos rfl, Store.CodeAdapter.redeem_snd, Store.Codes.get_redeem h]
    simp

/-- A code is handed out only if a statement has stored it. -/
lemma issue_some {raw : Option Bytes} (h : (issue fate db now raw g).1 = some code) :
    ∀ c, (Event.issue fate now raw g c).effect = some (.put code (rowOf now g)) := by
  intro c
  unfold issue at h
  dsimp only at h
  split_ifs at h with hfate
  subst hfate
  cases raw with
  | none => cases h
  | some b =>
    unfold Store.CodeAdapter.issue Store.Codes.insert at h
    dsimp only at h
    split_ifs at h with hstore
    · obtain rfl := Option.some.inj h
      have hfields := hstore.1
      rw [List.all_cons, Bool.and_eq_true] at hfields
      exact if_pos ⟨by decide, hfields.2⟩

/-- What is left by the statement for a new code. -/
lemma get_issue (hfree : db.authCodes.get (Base64.encode raw) = none) (c : Option Bytes) :
    (issue fate db now (some raw) g).2.authCodes.get code =
      (Event.issue fate now (some raw) g c).effect.elim (db.authCodes.get code)
        (Effect.apply code (db.authCodes.get code)) := by
  unfold issue
  dsimp only
  by_cases hfields : [g.tenantID, g.subjectID, g.clientID, g.redirectURI, g.scope, g.nonce,
      g.codeChallenge].all storable = true
  · have hall : [Base64.encode raw, g.tenantID, g.subjectID, g.clientID, g.redirectURI, g.scope,
        g.nonce, g.codeChallenge].all storable = true := by
      rw [List.all_cons, CodeStores.storable_encode]
      exact hfields
    have hins : db.insert (Base64.encode raw) (Store.CodeAdapter.toStore g) (now + codeTTL) =
        some ⟨db.authCodes.set (Base64.encode raw) (rowOf now g)⟩ := if_pos ⟨hall, hfree⟩
    cases hruns : fate.runs with
    | false => simp [Event.effect, hruns]
    | true =>
      simp only [Store.CodeAdapter.issue, hins, Event.effect, hruns, hfields, Effect.apply,
        if_true, and_self, Option.elim_some]
      exact Dict.get_set _ _ _ _
  · have hins : db.insert (Base64.encode raw) (Store.CodeAdapter.toStore g) (now + codeTTL) =
        none := by
      refine if_neg fun hall => hfields ?_
      have hfields := hall.1
      rw [List.all_cons, Bool.and_eq_true] at hfields
      exact hfields.2
    simp only [Store.CodeAdapter.issue, hins, Event.effect, hfields, and_false, if_false,
      Option.elim_none, ite_self, Bool.false_eq_true]

end statements

section exchange
variable {t : Token} {P : Dpop.Platform} {J : Tokens.Codec} {fate : Fate} {db : Store.Codes}
  {seen : Dpop.ReplayCache} {clk : TokenReadings} {raw : Option Bytes} {seed : Bytes}
  {r : TokenRequest} {f : ExchangeForm}

/-- The database sees nothing of an exchange but its attempt. -/
lemma exchange_db (hf : Token.parse r = .ok f) :
    (exchange t P J fate db seen clk raw seed r).2.1 =
      (redeem P.toCrypto fate db clk.redeem f).2 := by
  unfold exchange
  rw [hf]
  dsimp only
  split
  next h => rw [h]
  next h =>
    rw [h]
    dsimp only
    split
    · rfl
    · split <;> rfl

lemma exchange_refused {resp : Response} (hf : Token.parse r = .error resp) :
    exchange t P J fate db seen clk raw seed r = (.error resp, db, seen) := by
  unfold exchange
  rw [hf]

/-- A token is minted for a grant that was got from the database. -/
lemma exchange_ok {x : Bytes × Bytes}
    (h : (exchange t P J fate db seen clk raw seed r).1 = .ok x) :
    ∃ f g, Token.parse r = .ok f ∧ (redeem P.toCrypto fate db clk.redeem f).1 = .ok g := by
  cases hf : Token.parse r with
  | error resp =>
    rw [exchange_refused hf] at h
    cases h
  | ok f =>
    unfold exchange at h
    rw [hf] at h
    dsimp only at h
    split at h
    · cases h
    next g left hg => exact ⟨f, g, rfl, congrArg Prod.fst hg⟩

end exchange

/-! ## Runs -/

/-- The code was drawn at random. -/
def Drawn (s : State) (code : Bytes) : Prop := ∃ raw ∈ s.drawn, Base64.encode raw = code

/-- The rows of the database are those that the trace says are open. -/
structure Stored (tr : List Event) (s : State) : Prop where
  rows : ∀ code row, s.db.authCodes.get code = some row ↔ Open tr code row
  drawn : ∀ code row, s.db.authCodes.get code = some row → Drawn s code

section runs
variable {w : Endpoint} {s s' : State} {e : Event} {tr : List Event} {code : Bytes}
  {row : AuthCode}

lemma storable_of_drawn (h : Drawn s code) : storable code = true := by
  obtain ⟨raw, -, rfl⟩ := h
  exact CodeStores.storable_encode raw

/-- What is drawn for a code is new, and stays drawn. -/
lemma step_drawn (h : w.step s e = some s') : (∀ code, Drawn s code → Drawn s' code) ∧
    ∀ code row, e.effect = some (.put code row) → ¬ Drawn s code ∧ Drawn s' code := by
  cases e with
  | issue fate now raw g c =>
    simp only [Endpoint.step] at h
    split_ifs at h with hnew
    obtain rfl := Option.some.inj h
    refine ⟨fun code ⟨b, hb, hcode⟩ => ⟨b, List.mem_append_right _ hb, hcode⟩, ?_⟩
    intro code row he
    cases raw with
    | none => cases he
    | some b =>
      simp only [Event.effect] at he
      split_ifs at he
      obtain ⟨rfl, -⟩ := Effect.put.inj (Option.some.inj he)
      refine ⟨?_, b, List.mem_append_left _ (by simp), rfl⟩
      rintro ⟨b', hb', henc⟩
      obtain rfl := Base64.encode_injective henc
      simp [hb'] at hnew
  | exchange n fate clk raw seed r token =>
    simp only [Endpoint.step] at h
    split_ifs at h
    obtain rfl := Option.some.inj h
    refine ⟨fun _ hd => hd, fun code row he => ?_⟩
    simp only [Event.effect, Option.bind_eq_some_iff] at he
    obtain ⟨f, -, he⟩ := he
    split_ifs at he
    cases Option.some.inj he
  | deleteExpired fate t =>
    obtain rfl := Option.some.inj h
    refine ⟨fun _ hd => hd, fun code row he => ?_⟩
    simp only [Event.effect] at he
    split_ifs at he
    cases Option.some.inj he
  | restart n =>
    obtain rfl := Option.some.inj h
    exact ⟨fun _ hd => hd, fun code row he => nomatch he⟩

/-- Only effects change the rows. -/
lemma get_step (h : w.step s e = some s')
    (hdrawn : ∀ code row, s.db.authCodes.get code = some row → Drawn s code) :
    s'.db.authCodes.get code = e.effect.elim (s.db.authCodes.get code)
      (Effect.apply code (s.db.authCodes.get code)) := by
  cases e with
  | issue fate now raw g c =>
    simp only [Endpoint.step] at h
    split_ifs at h with hnew
    obtain rfl := Option.some.inj h
    cases raw with
    | none => simp [issue, Store.CodeAdapter.issue, Event.effect]
    | some b =>
      refine get_issue (Option.eq_none_iff_forall_ne_some.mpr fun row hrow => ?_) c
      obtain ⟨b', hb', henc⟩ := hdrawn _ row hrow
      obtain rfl := Base64.encode_injective henc
      simp [hb'] at hnew
  | exchange n fate clk raw seed r token =>
    simp only [Endpoint.step] at h
    split_ifs at h
    obtain rfl := Option.some.inj h
    cases hf : Token.parse r with
    | error resp =>
      dsimp only
      rw [exchange_refused hf]
      simp [Event.effect, hf, Except.toOption]
    | ok f =>
      dsimp only
      have hstore : s.db.authCodes.get f.code ≠ none → storable f.code = true := fun hrow => by
        obtain ⟨row, hrow⟩ := Option.ne_none_iff_exists'.mp hrow
        exact storable_of_drawn (hdrawn _ row hrow)
      rw [exchange_db hf, get_redeem hstore]
      by_cases hcode : storable f.code = true
      · cases hruns : fate.runs <;> simp [Event.effect, hf, Except.toOption, hruns, hcode,
          Effect.apply]
      · have hnone : s.db.authCodes.get f.code = none := not_not.mp fun hrow => hcode (hstore hrow)
        have hquiet : (Event.exchange n fate clk raw seed r token).effect = none := by
          simp [Event.effect, hf, Except.toOption, hcode]
        rw [hquiet, Option.elim_none]
        split_ifs with htook
        · rw [htook.2, hnone]
        · rfl
  | deleteExpired fate t =>
    obtain rfl := Option.some.inj h
    cases hruns : fate.runs with
    | false => simp [Fate.exec, hruns, Event.effect]
    | true =>
      simp only [Fate.exec, hruns, Event.effect, Effect.apply, Store.Codes.deleteExpired, if_true,
        Option.getD_some, Option.elim_some]
      ext row
      rw [Dict.get_retain, Option.filter_eq_some_iff]
  | restart n =>
    obtain rfl := Option.some.inj h
    rfl

lemma open_snoc : Open (tr ++ [e]) code row ↔ e.effect = some (.put code row) ∨
    Open tr code row ∧ ∀ x, e.effect = some x → ¬ x.Closes code row := by
  simp [Open, LastIs.snoc_iff]

/-- Every step keeps the rows those of the trace. -/
lemma stored_step (h : Stored tr s) (hs : w.step s e = some s') : Stored (tr ++ [e]) s' := by
  obtain ⟨hgrows, hnew⟩ := step_drawn hs
  have hrows : ∀ code row, s'.db.authCodes.get code = some row ↔ Open (tr ++ [e]) code row := by
    intro code row
    rw [get_step hs h.drawn, open_snoc, ← h.rows]
    cases he : e.effect with
    | none => simp
    | some x =>
      cases x with
      | put c row' =>
        obtain ⟨hfree, -⟩ := hnew c row' he
        by_cases hcode : code = c
        · subst hcode
          have hnone : s.db.authCodes.get code ≠ some row := fun hrow => hfree (h.drawn _ row hrow)
          simp [Effect.apply, Effect.Closes, hnone, eq_comm]
        · simp [Effect.apply, Effect.Closes, hcode, Ne.symm hcode]
      | take c =>
        by_cases hcode : code = c
        · simp [Effect.apply, Effect.Closes, hcode]
        · simp [Effect.apply, Effect.Closes, hcode, Ne.symm hcode]
      | delete t => simp [Effect.apply, Effect.Closes, Option.filter_eq_some_iff]
  refine ⟨hrows, fun code row hrow => ?_⟩
  rcases open_snoc.mp ((hrows code row).mp hrow) with he | ⟨hopen, -⟩
  · exact (hnew code row he).2
  · exact hgrows code (h.drawn code row ((h.rows code row).mpr hopen))

lemma stored_run (hr : Run (StepOf w.step) .start tr s) : Stored tr s := by
  refine hr.invariant Stored ⟨fun code row => ?_, fun code row hrow => ?_⟩
    fun tr s e s' _ h hs => stored_step h hs
  · have hnone : ¬ Open [] code row := fun hopen => by simpa using hopen.mem
    simp [State.start, Store.Codes.new, hnone]
  · simp [State.start, Store.Codes.new] at hrow

/-- The attempt of an exchange that ends in a token was executed on an open code. -/
lemma exchanged_spec (h : w.step s e = some s') (hcode : e.exchanged = some code) :
    e.effect = some (.take code) ∧ (s.db.authCodes.get code).isSome = true := by
  cases e with
  | exchange n fate clk raw seed r token =>
    cases token with
    | none => cases hcode
    | some token =>
      simp only [Endpoint.step] at h
      split_ifs at h with htoken
      obtain ⟨x, hx, -⟩ := Option.map_eq_some_iff.mp htoken
      have hok : (exchange w.token w.platform w.codec fate s.db (s.seen n) clk raw seed r).1 =
          .ok x := by
        revert hx
        cases (exchange w.token w.platform w.codec fate s.db (s.seen n) clk raw seed r).1 with
        | error resp => simp [Except.toOption]
        | ok y => simp [Except.toOption]
      obtain ⟨f, g, hf, hg⟩ := exchange_ok hok
      obtain ⟨rfl, hstore, row, hrow, -⟩ := redeem_ok_iff.mp hg
      obtain rfl : f.code = code := by simpa [Event.exchanged, hf, Except.toOption] using hcode
      refine ⟨?_, by simp [hrow]⟩
      simp [Event.effect, hf, Except.toOption, hstore, Fate.runs]
  | issue fate now raw g c => cases hcode
  | deleteExpired fate t => cases hcode
  | restart n => cases hcode

/-- The codes that were exchanged, against those that are open and those that were drawn. -/
lemma once_run (hr : Run (StepOf w.step) .start tr s) : OneTime (tr.filterMap Event.exchanged)
    (fun code => (s.db.authCodes.get code).isSome = true) (Drawn s) := by
  refine hr.invariant (fun tr s => OneTime (tr.filterMap Event.exchanged)
    (fun code => (s.db.authCodes.get code).isSome = true) (Drawn s)) ?_
    fun tr s e s' hr h hs => ?_
  · exact OneTime.empty fun code hcode => by simp [State.start, Store.Codes.new] at hcode
  · have hstored := stored_run hr
    obtain ⟨hgrows, hnew⟩ := step_drawn hs
    have hget : ∀ code, s'.db.authCodes.get code = e.effect.elim (s.db.authCodes.get code)
        (Effect.apply code (s.db.authCodes.get code)) := fun _ => get_step hs hstored.drawn
    cases hused : e.exchanged with
    | some code =>
      obtain ⟨he, hlive⟩ := exchanged_spec hs hused
      refine h.useAt hused hlive (fun x hx => ?_) hgrows
      rw [hget, he, Option.elim_some, Effect.apply] at hx
      split_ifs at hx with hcode
      · cases hx
      · exact ⟨hx, hcode⟩
    | none =>
      cases he : e.effect with
      | none =>
        refine h.idle hused (fun x hx => ?_) hgrows
        rwa [hget, he] at hx
      | some effect =>
        cases effect with
        | put code row =>
          obtain ⟨hfree, hdrawn⟩ := hnew code row he
          refine h.putAt hused hfree hdrawn (fun x hx => ?_) hgrows
          rw [hget, he, Option.elim_some, Effect.apply] at hx
          split_ifs at hx with hcode
          · exact .inr hcode
          · exact .inl hx
        | take code =>
          refine h.idle hused (fun x hx => ?_) hgrows
          rw [hget, he, Option.elim_some, Effect.apply] at hx
          split_ifs at hx with hcode
          · cases hx
          · exact hx
        | delete t =>
          refine h.idle hused (fun x hx => ?_) hgrows
          rw [hget, he, Option.elim_some, Effect.apply] at hx
          exact Option.isSome_of_isSome_filter _ _ hx

end runs

/-- Codes across a fleet. What is handed out is stored. An attempt gets the grant of its code, on
whatever gateway, exactly if the database answers it and the code is open: stored by a statement,
and not taken since by an executed attempt or deleted past its time. No code is exchanged for two
tokens. -/
theorem code_exchanged_once {w : Endpoint} {tr : List Event} {s : State}
    (hr : Run (StepOf w.step) .start tr s) :
    (∀ fate now raw g code, .issue fate now raw g (some code) ∈ tr →
      (Event.issue fate now raw g (some code)).effect = some (.put code (rowOf now g))) ∧
    (∀ fate now f g, (redeem w.platform.toCrypto fate s.db now f).1 = .ok g ↔
      fate = .answered ∧ ∃ row, Open tr f.code row ∧ Fits w.platform.toCrypto f row now ∧
        (entryOf row).grant = g) ∧
    (tr.filterMap Event.exchanged).Nodup := by
  refine ⟨fun fate now raw g code hmem => ?_, fun fate now f g => ?_, (once_run hr).nodup⟩
  · obtain ⟨pre, post, rfl⟩ := List.append_of_mem hmem
    obtain ⟨s₁, s₂, -, hs, -⟩ := hr.at_label pre post rfl
    change w.step s₁ _ = some s₂ at hs
    simp only [Endpoint.step] at hs
    split_ifs at hs with hcode
    exact issue_some hcode.2 _
  · have hstored := stored_run hr
    rw [redeem_ok_iff]
    constructor
    · rintro ⟨hfate, -, row, hrow, hfits, hg⟩
      exact ⟨hfate, row, (hstored.rows _ row).mp hrow, hfits, hg⟩
    · rintro ⟨hfate, row, hopen, hfits, hg⟩
      have hrow := (hstored.rows _ row).mpr hopen
      exact ⟨hfate, storable_of_drawn (hstored.drawn _ row hrow), row, hrow, hfits, hg⟩

/-! ## Worked example -/

namespace Worked
open Sessions.Worked (moment jtiRaw token)
open Gateway.Worked (deployment codeRaw grant)

def endpoint : Endpoint := ⟨deployment.endpoint, deployment.platform, deployment.codec⟩

def readings : TokenReadings := ⟨moment 0, moment 0, moment 0, moment 0⟩

/-- A code whose first attempt does not reach the database is exchanged by the other gateway, and
then by none. -/
def story : List Event :=
  [.issue .answered (moment 0) (some codeRaw) grant (some (Base64.encode codeRaw)),
    .deleteExpired .lost (moment 0),
    .exchange 0 .unreached readings (some jtiRaw) [] Gateway.Worked.exchange none,
    .restart 0,
    .exchange 1 .answered readings (some jtiRaw) [] Gateway.Worked.exchange (some token),
    .exchange 0 .answered readings (some jtiRaw) [] Gateway.Worked.exchange none]

end Worked

theorem code_exchanged_once_worked : (Worked.story.filterMap Event.exchanged).Nodup := by
  obtain ⟨s, hr⟩ := Run.exists_of_foldlM Worked.endpoint.step .start Worked.story
    (by decide +kernel)
  exact (code_exchanged_once hr).2.2

end AiAuth.Replicas
