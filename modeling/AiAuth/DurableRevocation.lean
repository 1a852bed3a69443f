import AiAuth.RevocationPrivacy

/-!
# Revocation across a fleet

Any number of gateways ask one database which tokens are revoked. A statement may run and its
answer be lost, or not run at all; gateways restart, and rows of killed tokens are deleted when
they are past their time. What was revoked stays revoked on every gateway.
-/
namespace AiAuth.Fleet
open Library Sessions
open Store (timestamptz storable greatest)

/-- What becomes of a statement that is sent to the database. -/
inductive Fate
  | answered
  | lost
  | unreached
  deriving DecidableEq

/-- The statement is executed, whether or not its answer arrives. -/
def Fate.runs (fate : Fate) : Bool := fate ≠ .unreached

/-- The tables after a statement, which fails as a whole or takes effect as a whole. -/
def Fate.exec {α : Type} (fate : Fate) (db : α) (statement : Option α) : α :=
  if fate.runs then statement.getD db else db

/-- What the caller is told. -/
def Fate.succeeds {α : Type} (fate : Fate) (statement : Option α) : Bool :=
  fate = .answered && statement.isSome

/-- The database, and what each gateway has in memory. -/
structure State where
  db : Store.Revocations
  seen : ℕ → Dpop.ReplayCache

def State.start : State := ⟨.new, fun _ => .new Dpop.ReplayCache.capacity⟩

/-- Statements with the database's clock and what the caller is told, and requests with the
gateway they come to, whether the database answers it, and what they end with. -/
inductive Event
  | revokeToken (fate : Fate) (jti : Bytes) (forgetAfter : ℤ) (ok : Bool)
  | revokeSubject (fate : Fate) (t : ℤ) (tenantID subjectID : Bytes) (ok : Bool)
  | revokeTenant (fate : Fate) (t : ℤ) (tenantID : Bytes) (ok : Bool)
  | deleteExpired (fate : Fate) (t : ℤ)
  | restart (n : ℕ)
  | request (n : ℕ) (clk : Readings) (reached : Bool) (r : Request) (c : Option Tokens.Claims)

/-- The routes that the gateways serve. -/
structure Routes where
  auth : Authenticator
  platform : Dpop.Platform
  codec : Tokens.Codec

namespace Routes

/-- One request at one gateway. -/
def serve (w : Routes) (s : State) (n : ℕ) (clk : Readings) (reached : Bool) (r : Request) :
    Except Response Tokens.Claims × Dpop.ReplayCache :=
  w.auth.require w.platform w.codec (s.seen n)
    (RevocationBackend.postgres s.db (!reached)).checker clk r

def step (w : Routes) (s : State) : Event → Option State
  | .revokeToken fate jti forgetAfter ok =>
    let statement := s.db.revokeToken jti forgetAfter
    if fate.succeeds statement = ok then some { s with db := fate.exec s.db statement } else none
  | .revokeSubject fate t tenantID subjectID ok =>
    let statement := s.db.revokeSubject t tenantID subjectID
    if fate.succeeds statement = ok then some { s with db := fate.exec s.db statement } else none
  | .revokeTenant fate t tenantID ok =>
    let statement := s.db.revokeTenant t tenantID
    if fate.succeeds statement = ok then some { s with db := fate.exec s.db statement } else none
  | .deleteExpired fate t =>
    some { s with db := fate.exec s.db (some (s.db.deleteExpired t)) }
  | .restart n => some { s with seen := Function.update s.seen n (.new Dpop.ReplayCache.capacity) }
  | .request n clk reached r c =>
    let res := w.serve s n clk reached r
    if res.1.toOption = c then some { s with seen := Function.update s.seen n res.2 } else none

end Routes

/-! ## What the trace says was revoked -/

/-- What a statement that is executed does to the tables. -/
inductive Effect
  | kill (jti : Bytes) (forget : ℤ)
  | cut (tenantID subjectID : Bytes) (t : ℤ)
  | delete (t : ℤ)

def Effect.apply (db : Store.Revocations) : Effect → Store.Revocations
  | .kill jti forget =>
    { db with revokedTokens :=
        db.revokedTokens.set jti (greatest (db.revokedTokens.get jti) forget) }
  | .cut tenantID subjectID t =>
    { db with cutoffs :=
        db.cutoffs.set (tenantID, subjectID) (greatest (db.cutoffs.get (tenantID, subjectID)) t) }
  | .delete t => db.deleteExpired t

/-- A statement has no effect where it does not run or a value cannot be stored. -/
def Event.effect : Event → Option Effect
  | .revokeToken fate jti forgetAfter _ =>
    if fate.runs ∧ storable jti then some (.kill jti (timestamptz forgetAfter)) else none
  | .revokeSubject fate t tenantID subjectID _ =>
    if fate.runs ∧ storable tenantID ∧ storable subjectID then some (.cut tenantID subjectID t)
    else none
  | .revokeTenant fate t tenantID _ =>
    if fate.runs ∧ storable tenantID then some (.cut tenantID [] t) else none
  | .deleteExpired fate t => if fate.runs then some (.delete t) else none
  | _ => none

/-- The identifier was killed until `forget`, and no deletion since then came after that. -/
def Killed (tr : List Event) (jti : Bytes) (forget : ℤ) : Prop :=
  ∃ pre e post, tr = pre ++ e :: post ∧ e.effect = some (.kill jti forget) ∧
    ∀ e ∈ post, ∀ t, e.effect = some (.delete t) → t ≤ forget

/-- A cutoff that was set at some time; the one of a tenant is under the empty subject. -/
def Cutoff (tr : List Event) (tenantID subjectID : Bytes) (t : ℤ) : Prop :=
  ∃ e ∈ tr, e.effect = some (.cut tenantID subjectID t)

/-- The token is one that was revoked. -/
def Revoked (tr : List Event) (c : Tokens.Claims) : Prop :=
  (∃ forget, Killed tr c.jti forget) ∨
    ∃ subjectID t, (subjectID = c.subject ∨ subjectID = []) ∧ Cutoff tr c.tenantID subjectID t ∧
      timestamptz (Time.ofUnix c.issuedAt) ≤ t

/-- The rows of the tables are those of the trace; a row may stand for several statements, and
then it is the latest instant of them. -/
structure Stored (tr : List Event) (db : Store.Revocations) : Prop where
  killed : ∀ jti forget, db.revokedTokens.get jti = some forget → Killed tr jti forget
  kept : ∀ jti forget, Killed tr jti forget →
    ∃ forget', db.revokedTokens.get jti = some forget' ∧ forget ≤ forget'
  cut : ∀ T S t, db.cutoffs.get (T, S) = some t → Cutoff tr T S t
  stays : ∀ T S t, Cutoff tr T S t → ∃ t', db.cutoffs.get (T, S) = some t' ∧ t ≤ t'

section trace
variable {w : Routes} {s s' : State} {tr : List Event} {e : Event} {jti T S : Bytes} {forget t : ℤ}
  {db : Store.Revocations}

/-- Only effects change the tables. -/
lemma step_db (h : w.step s e = some s') : s'.db = e.effect.elim s.db (Effect.apply s.db) := by
  cases e with
  | revokeToken fate jti f ok =>
    simp only [Routes.step] at h
    split_ifs at h
    obtain rfl := Option.some.inj h
    by_cases hjti : storable jti = true <;> cases hruns : fate.runs <;>
      simp [Fate.exec, hruns, Store.Revocations.revokeToken, hjti, Event.effect, Effect.apply]
  | revokeSubject fate t T S ok =>
    simp only [Routes.step] at h
    split_ifs at h
    obtain rfl := Option.some.inj h
    by_cases hstore : storable T = true ∧ storable S = true <;> cases hruns : fate.runs <;>
      simp [Fate.exec, hruns, Store.Revocations.revokeSubject, hstore, Event.effect, Effect.apply]
  | revokeTenant fate t T ok =>
    have hempty : storable [] = true := by decide
    simp only [Routes.step] at h
    split_ifs at h
    obtain rfl := Option.some.inj h
    by_cases hstore : storable T = true <;> cases hruns : fate.runs <;>
      simp [Fate.exec, hruns, Store.Revocations.revokeTenant, Store.Revocations.revokeSubject,
        hstore, hempty, Event.effect, Effect.apply]
  | deleteExpired fate t =>
    obtain rfl := Option.some.inj h
    cases hruns : fate.runs <;> simp [Fate.exec, hruns, Event.effect, Effect.apply]
  | restart n =>
    obtain rfl := Option.some.inj h
    rfl
  | request n clk reached r c =>
    simp only [Routes.step] at h
    split_ifs at h
    obtain rfl := Option.some.inj h
    rfl

lemma Cutoff.mono (h : Cutoff tr T S t) : Cutoff (tr ++ [e]) T S t := by
  obtain ⟨e', hmem, he'⟩ := h
  exact ⟨e', List.mem_append_left _ hmem, he'⟩

lemma Cutoff.of_snoc (h : Cutoff (tr ++ [e]) T S t) :
    e.effect = some (.cut T S t) ∨ Cutoff tr T S t := by
  obtain ⟨e', hmem, he'⟩ := h
  rcases List.mem_append.mp hmem with hmem | hmem
  · exact .inr ⟨e', hmem, he'⟩
  · exact .inl (List.mem_singleton.mp hmem ▸ he')

/-- A killed identifier stays killed but for a deletion after its time. -/
lemma Killed.mono (h : Killed tr jti forget)
    (he : ∀ t, e.effect = some (.delete t) → t ≤ forget) : Killed (tr ++ [e]) jti forget := by
  obtain ⟨pre, k, post, rfl, hk, hpost⟩ := h
  refine ⟨pre, k, post ++ [e], by simp, hk, fun e' hmem => ?_⟩
  rcases List.mem_append.mp hmem with hmem | hmem
  · exact hpost e' hmem
  · exact List.mem_singleton.mp hmem ▸ he

/-- What is killed after a step was killed by it or before it. -/
lemma Killed.of_snoc (h : Killed (tr ++ [e]) jti forget) :
    e.effect = some (.kill jti forget) ∨
      Killed tr jti forget ∧ ∀ t, e.effect = some (.delete t) → t ≤ forget := by
  obtain ⟨pre, k, post, htr, hk, hpost⟩ := h
  rcases List.eq_nil_or_concat post with rfl | ⟨post, b, rfl⟩
  · obtain ⟨-, he⟩ := List.append_inj' htr rfl
    exact .inl (List.singleton_inj.mp he ▸ hk)
  · rw [List.concat_eq_append, ← List.cons_append, ← List.append_assoc] at htr
    obtain ⟨rfl, he⟩ := List.append_inj' htr rfl
    obtain rfl := List.singleton_inj.mp he
    exact .inr ⟨⟨pre, k, post, rfl, hk, fun e' hmem => hpost e' (by simp [hmem])⟩,
      hpost e (by simp)⟩

/-- The later one of two instants is one of them, and not before the stored one. -/
lemma greatest_cases {stored : Option ℤ} {x y : ℤ} (h : greatest stored x = y) :
    (y = x ∨ stored = some y) ∧ ∀ z, stored = some z → z ≤ y := by
  subst h
  cases stored with
  | none => exact ⟨.inl rfl, by simp⟩
  | some z =>
    refine ⟨?_, ?_⟩
    · rcases max_choice z x with hmax | hmax
      · exact .inr (congrArg some hmax.symm)
      · exact .inl hmax
    · rintro _ ⟨⟩
      exact le_max_left z x

lemma Stored.kill {forget : ℤ} (h : Stored tr db) (he : e.effect = some (.kill jti forget)) :
    Stored (tr ++ [e]) (Effect.apply db (.kill jti forget)) := by
  have hstay : ∀ f t, e.effect = some (.delete t) → t ≤ f := by
    intro f t het
    rw [he] at het
    cases het
  have hnew : Killed (tr ++ [e]) jti forget := ⟨tr, e, [], rfl, he, by simp⟩
  refine ⟨fun jti' f hget => ?_, fun jti' f hk => ?_, fun T S t hget => (h.cut T S t hget).mono,
    fun T S t hc => ?_⟩
  · rcases Dict.get_of_set hget with ⟨rfl, hf⟩ | ⟨-, hget⟩
    · rcases (greatest_cases hf.symm).1 with rfl | hold
      · exact hnew
      · exact (h.killed _ f hold).mono (hstay f)
    · exact (h.killed jti' f hget).mono (hstay f)
  · have hbefore : ∀ f, Killed tr jti' f →
        ∃ f', (Effect.apply db (.kill jti forget)).revokedTokens.get jti' = some f' ∧ f ≤ f' := by
      intro f hk
      obtain ⟨f', hget, hle⟩ := h.kept jti' f hk
      by_cases hjti : jti' = jti
      · subst hjti
        exact ⟨_, Dict.get_set_self _ _ _, hle.trans ((greatest_cases rfl).2 f' hget)⟩
      · exact ⟨f', (Dict.get_set_ne _ hjti _).trans hget, hle⟩
    rcases hk.of_snoc with hk | ⟨hk, -⟩
    · rw [he] at hk
      obtain ⟨rfl, rfl⟩ := Effect.kill.inj (Option.some.inj hk)
      exact ⟨_, Dict.get_set_self _ _ _, Store.le_greatest _ _⟩
    · exact hbefore f hk
  · rcases hc.of_snoc with hc | hc
    · rw [he] at hc
      cases hc
    · exact h.stays T S t hc

lemma Stored.cutAt (h : Stored tr db) (he : e.effect = some (.cut T S t)) :
    Stored (tr ++ [e]) (Effect.apply db (.cut T S t)) := by
  have hstay : ∀ f t, e.effect = some (.delete t) → t ≤ f := by
    intro f t het
    rw [he] at het
    cases het
  refine ⟨fun jti f hget => (h.killed jti f hget).mono (hstay f), fun jti f hk => ?_,
    fun T' S' u hget => ?_, fun T' S' u hc => ?_⟩
  · rcases hk.of_snoc with hk | ⟨hk, -⟩
    · rw [he] at hk
      cases hk
    · exact h.kept jti f hk
  · rcases Dict.get_of_set hget with ⟨hkey, hu⟩ | ⟨-, hget⟩
    · obtain ⟨rfl, rfl⟩ := Prod.mk.inj hkey
      rcases (greatest_cases hu.symm).1 with rfl | hold
      · exact ⟨e, by simp, he⟩
      · exact (h.cut _ _ u hold).mono
    · exact (h.cut T' S' u hget).mono
  · rcases hc.of_snoc with hc | hc
    · rw [he] at hc
      obtain ⟨rfl, rfl, rfl⟩ := Effect.cut.inj (Option.some.inj hc)
      exact ⟨_, Dict.get_set_self _ _ _, Store.le_greatest _ _⟩
    · obtain ⟨u', hget, hle⟩ := h.stays T' S' u hc
      by_cases hkey : (T', S') = (T, S)
      · obtain ⟨rfl, rfl⟩ := Prod.mk.inj hkey
        exact ⟨_, Dict.get_set_self _ _ _, hle.trans ((greatest_cases rfl).2 u' hget)⟩
      · exact ⟨u', (Dict.get_set_ne _ hkey _).trans hget, hle⟩

/-- A deletion drops the rows past their time, which nothing else stands for. -/
lemma Stored.delete (h : Stored tr db) (he : e.effect = some (.delete t)) :
    Stored (tr ++ [e]) (Effect.apply db (.delete t)) := by
  have htime : ∀ u, e.effect = some (.delete u) → u = t := by
    intro u hu
    rw [he] at hu
    exact (Effect.delete.inj (Option.some.inj hu)).symm
  refine ⟨fun jti f hget => ?_, fun jti f hk => ?_, fun T S u hget => (h.cut T S u hget).mono,
    fun T S u hc => ?_⟩
  · obtain ⟨hget, hf⟩ := Dict.get_retain.mp hget
    refine (h.killed jti f hget).mono fun u hu => ?_
    rw [htime u hu]
    simpa using hf
  · rcases hk.of_snoc with hk | ⟨hk, hle⟩
    · rw [he] at hk
      cases hk
    · obtain ⟨f', hget, hff'⟩ := h.kept jti f hk
      refine ⟨f', Dict.get_retain.mpr ⟨hget, ?_⟩, hff'⟩
      simpa using (hle t he).trans hff'
  · rcases hc.of_snoc with hc | hc
    · rw [he] at hc
      cases hc
    · exact h.stays T S u hc

lemma Stored.quiet (h : Stored tr db) (he : e.effect = none) : Stored (tr ++ [e]) db := by
  have hnone : ∀ {x : Effect}, e.effect ≠ some x := by simp [he]
  refine ⟨fun jti f hget => (h.killed jti f hget).mono fun u hu => absurd hu hnone,
    fun jti f hk => ?_, fun T S u hget => (h.cut T S u hget).mono, fun T S u hc => ?_⟩
  · rcases hk.of_snoc with hk | ⟨hk, -⟩
    · exact absurd hk hnone
    · exact h.kept jti f hk
  · rcases hc.of_snoc with hc | hc
    · exact absurd hc hnone
    · exact h.stays T S u hc

/-- The tables tell what the trace tells. -/
theorem stored_run (hr : Run (StepOf w.step) .start tr s) : Stored tr s.db := by
  refine hr.invariant (fun tr s => Stored tr s.db) ?_ fun tr s e s' _ h hs => ?_
  · refine ⟨by simp [State.start, Store.Revocations.new], ?_,
      by simp [State.start, Store.Revocations.new], ?_⟩
    · rintro jti f ⟨pre, e, post, htr, -⟩
      simp at htr
    · rintro T S t ⟨e, hmem, -⟩
      cases hmem
  · rw [step_db hs]
    cases he : e.effect with
    | none => exact h.quiet he
    | some effect =>
      cases effect with
      | kill jti forget => exact h.kill he
      | cut T S t => exact h.cutAt he
      | delete t => exact h.delete he

/-- The tables answer whether the token was revoked. -/
lemma Stored.revoked_iff (h : Stored tr db) {c : Tokens.Claims}
    (hstore : [c.jti, c.tenantID, c.subject].all storable = true) :
    db.isRevoked c.jti c.tenantID c.subject (Time.ofUnix c.issuedAt) = some true ↔
      Revoked tr c := by
  have hreach : ∀ S, Store.Revocations.reaches (Time.ofUnix c.issuedAt)
      (db.cutoffs.get (c.tenantID, S)) = true ↔
        ∃ t, Cutoff tr c.tenantID S t ∧ timestamptz (Time.ofUnix c.issuedAt) ≤ t := by
    intro S
    constructor
    · intro hr
      obtain ⟨t, hget, hle⟩ := (Option.any_eq_true _ _).mp hr
      exact ⟨t, h.cut _ _ t hget, of_decide_eq_true hle⟩
    · rintro ⟨t, hc, hle⟩
      obtain ⟨t', hget, htt'⟩ := h.stays _ _ t hc
      exact (Option.any_eq_true _ _).mpr ⟨t', hget, decide_eq_true (hle.trans htt')⟩
  have hkilled : (db.revokedTokens.get c.jti).isSome = true ↔ ∃ forget, Killed tr c.jti forget := by
    constructor
    · intro hsome
      obtain ⟨forget, hget⟩ := Option.isSome_iff_exists.mp hsome
      exact ⟨forget, h.killed _ _ hget⟩
    · rintro ⟨forget, hk⟩
      obtain ⟨forget', hget, -⟩ := h.kept _ _ hk
      exact Option.isSome_iff_exists.mpr ⟨forget', hget⟩
  unfold Store.Revocations.isRevoked Revoked
  rw [if_pos hstore]
  simp only [List.any_cons, List.any_nil, Bool.or_false, Option.some.injEq, Bool.or_eq_true,
    hkilled, hreach]
  constructor
  · rintro (hk | ⟨t, hc, hle⟩ | ⟨t, hc, hle⟩)
    · exact .inl hk
    · exact .inr ⟨_, t, .inl rfl, hc, hle⟩
    · exact .inr ⟨_, t, .inr rfl, hc, hle⟩
  · rintro (hk | ⟨S, t, rfl | rfl, hc, hle⟩)
    · exact .inl hk
    · exact .inr (.inl ⟨t, hc, hle⟩)
    · exact .inr (.inr ⟨t, hc, hle⟩)

end trace

/-- A request whose token and proof are in order reaches the handler exactly if the database
answers and the token is not one that a statement, on whatever gateway, ever revoked; a killed
identifier is only forgotten by a deletion after its time. -/
theorem durable_revocation {w : Routes} {tr : List Event} {s : State} {n : ℕ} {clk : Readings}
    {reached : Bool} {r : Request} {raw : Bytes} {c : Tokens.Claims}
    (hr : Run (StepOf w.step) .start tr s)
    (hauth : (w.auth.authenticate w.platform w.codec (s.seen n) clk r).1 = .ok (raw, c)) :
    (w.serve s n clk reached r).1 = .ok c ↔
      reached = true ∧ [c.jti, c.tenantID, c.subject].all storable = true ∧ ¬ Revoked tr c := by
  have hserve : (w.serve s n clk reached r).1 =
      Authenticator.admitUnrevoked (RevocationBackend.postgres s.db (!reached)).checker c := by
    rw [Routes.serve, Authenticator.require,
      ← Prod.mk.eta (p := w.auth.authenticate w.platform w.codec (s.seen n) clk r), hauth]
  have hasked : (RevocationBackend.postgres s.db (!reached)).checker.ofClaims c = false ↔
      reached = true ∧ [c.jti, c.tenantID, c.subject].all storable = true ∧ ¬ Revoked tr c := by
    cases reached with
    | false => simp [RevocationBackend.checker, RevocationChecker.ofClaims]
    | true =>
      simp only [RevocationBackend.checker, RevocationChecker.ofClaims, Bool.not_true,
        Store.RevocationAdapter.isRevoked, true_and]
      by_cases hstore : [c.jti, c.tenantID, c.subject].all storable = true
      · rw [← (stored_run hr).revoked_iff hstore]
        simp [Store.Revocations.isRevoked, hstore]
      · simp [Store.Revocations.isRevoked, hstore]
  rw [hserve, Authenticator.admitUnrevoked, ← hasked]
  split_ifs with hq <;> simp [hq]

/-! ## Worked example -/

namespace Worked
open Sessions.Worked

def routes : Routes := ⟨service.auth, platform, codec⟩

def now : Readings := ⟨moment 610, moment 610, moment 610⟩

/-- The subject is cut off after a request, the answer to that is lost, rows are deleted and the
other gateway restarts. -/
def incident : List Event :=
  [.request 0 now true request (some claims),
    .revokeSubject .lost (moment 611) claims.tenantID claims.subject false,
    .deleteExpired .answered (moment 700),
    .restart 1]

end Worked

/-- The first request passes; on the other gateway it is refused. -/
theorem durable_revocation_worked :
    ∃ s, Run (StepOf Worked.routes.step) .start Worked.incident s ∧ ∀ reached,
      (Worked.routes.serve s 1 Worked.now reached Sessions.Worked.request).1 ≠
        .ok Sessions.Worked.claims := by
  obtain ⟨s, hr, hs⟩ := Run.exists_of_foldlM_any Worked.routes.step
    (fun s => decide ((Worked.routes.auth.authenticate Worked.routes.platform Worked.routes.codec
      (s.seen 1) Worked.now Sessions.Worked.request).1.toOption =
        some (Sessions.Worked.token, Sessions.Worked.claims))) .start Worked.incident
    (by decide +kernel)
  have hauth : (Worked.routes.auth.authenticate Worked.routes.platform Worked.routes.codec
      (s.seen 1) Worked.now Sessions.Worked.request).1 =
        .ok (Sessions.Worked.token, Sessions.Worked.claims) := by
    have hs := of_decide_eq_true hs
    revert hs
    cases (Worked.routes.auth.authenticate Worked.routes.platform Worked.routes.codec
      (s.seen 1) Worked.now Sessions.Worked.request).1 with
    | error resp => simp [Except.toOption]
    | ok found => simp [Except.toOption]
  refine ⟨s, hr, fun reached hok => ?_⟩
  obtain ⟨-, -, hnot⟩ := (durable_revocation hr hauth).mp hok
  have hcut : Cutoff Worked.incident Sessions.Worked.claims.tenantID Sessions.Worked.claims.subject
      (Sessions.Worked.moment 611) :=
    ⟨_, List.mem_cons_of_mem _ List.mem_cons_self, rfl⟩
  exact hnot (.inr ⟨_, _, .inl rfl, hcut, by decide +kernel⟩)

end AiAuth.Fleet
