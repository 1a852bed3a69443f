import AiAuth.Grants
import AiAuth.Store

/-!
# The stores in a shared database

The tables of the second migration, the statements that the stores of the gateway send, and any
statements of the other services. The stores behave as if the database were their own.
-/
namespace AiAuth.SharedStores
open Library Tables Grants
open Store (storable timestamptz AuthCode)

/-! ## Core tables -/

inductive Core
  | tenants
  | clients
  | clientRedirectURIs
  | subjects
  | credentials
  | authCodes
  | revokedTokens
  | revocationCutoffs
  | events
  deriving DecidableEq

structure TenantRow where
  name : Bytes
  profile : Bytes
  createdAt : ℤ
  deriving DecidableEq

structure ClientRow where
  name : Bytes
  createdAt : ℤ
  deriving DecidableEq

/-- The address is kept as ciphertext, with an index to search it by. -/
structure SubjectRow where
  emailIndex : Option Bytes
  emailCiphertext : Option Bytes
  emailWrappedDek : Option Bytes
  status : Bytes
  createdAt : ℤ
  deriving DecidableEq

structure CredentialRow where
  subjectID : Bytes
  publicKey : Bytes
  signCount : ℤ
  aaguid : Option Bytes
  createdAt : ℤ
  lastUsedAt : Option ℤ
  deriving DecidableEq

structure EventRow where
  tenantID : Bytes
  subjectID : Option Bytes
  action : Bytes
  outcome : Bytes
  requestID : Option Bytes
  detail : Json
  prevHash : Option Bytes
  hash : Bytes
  at_ : ℤ

namespace Core

def schema : Core → Schema
  | tenants | clients | clientRedirectURIs => .control
  | subjects | credentials | authCodes | revokedTokens | revocationCutoffs => .gateway
  | events => .audit

/-- Primary keys. -/
@[reducible]
def Key : Core → Type
  | tenants | authCodes | revokedTokens => Bytes
  | clients | subjects | credentials | revocationCutoffs => Bytes × Bytes
  | clientRedirectURIs => Bytes × Bytes × Bytes
  | events => ℤ

instance : (t : Core) → DecidableEq (Key t)
  | tenants | authCodes | revokedTokens => inferInstanceAs (DecidableEq Bytes)
  | clients | subjects | credentials | revocationCutoffs =>
    inferInstanceAs (DecidableEq (Bytes × Bytes))
  | clientRedirectURIs => inferInstanceAs (DecidableEq (Bytes × Bytes × Bytes))
  | events => inferInstanceAs (DecidableEq ℤ)

/-- The other columns. -/
@[reducible]
def Row : Core → Type
  | tenants => TenantRow
  | clients => ClientRow
  | clientRedirectURIs => Unit
  | subjects => SubjectRow
  | credentials => CredentialRow
  | authCodes => AuthCode
  | revokedTokens => ℤ
  | revocationCutoffs => ℤ
  | events => EventRow

/-- What a `bigint` can hold. -/
def bigint (n : ℤ) : Bool := -2 ^ 63 ≤ n && n < 2 ^ 63

/-- The types and checks of the columns. -/
def checkRow : (t : Core) → Key t → Row t → Bool
  | tenants, (id : Bytes), (r : TenantRow) => [id, r.name].all storable &&
    [ascii "strict", ascii "balanced", ascii "legacy", ascii "regulated"].contains r.profile
  | clients, (k : Bytes × Bytes), (r : ClientRow) => [k.1, k.2, r.name].all storable
  | clientRedirectURIs, (k : Bytes × Bytes × Bytes), _ => [k.1, k.2.1, k.2.2].all storable
  | subjects, (k : Bytes × Bytes), (r : SubjectRow) => [k.1, k.2].all storable &&
    [ascii "active", ascii "suspended", ascii "deleted"].contains r.status
  | credentials, (k : Bytes × Bytes), (r : CredentialRow) =>
    [k.1, k.2, r.subjectID].all storable && bigint r.signCount
  | authCodes, (code : Bytes), (r : AuthCode) => ([code, r.tenantID, r.subjectID, r.clientID,
    r.redirectURI, r.scope, r.codeChallenge] ++ r.nonce.toList).all storable
  | revokedTokens, (jti : Bytes), _ => storable jti
  | revocationCutoffs, (k : Bytes × Bytes), _ => [k.1, k.2].all storable
  | events, (seq : ℤ), (r : EventRow) => bigint seq && ([r.tenantID, r.action, r.outcome] ++
    r.subjectID.toList ++ r.requestID.toList).all storable

/-- No two subjects of a tenant have the same index. -/
def unique : (t : Core) → Dict (Key t) (Row t) → Bool
  | subjects, (d : Dict (Bytes × Bytes) SubjectRow) =>
    (d.entries.filterMap fun e => e.2.emailIndex.map fun i => (e.1.1, i)).Nodup
  | _, _ => true

def references : List (Reference Key Row) :=
  [⟨clients, tenants, fun (k : Bytes × Bytes) _ => some k.1⟩,
    ⟨clientRedirectURIs, clients, fun (k : Bytes × Bytes × Bytes) _ => some (k.1, k.2.1)⟩,
    ⟨credentials, subjects, fun (k : Bytes × Bytes) (r : CredentialRow) =>
      some (k.1, r.subjectID)⟩]

def layout : Layout Key Row Schema where
  part := schema
  references := references
  within r hr := by fin_cases hr <;> rfl
  checkRow := checkRow
  unique := unique

/-- The tables in the order of their creation. -/
def created : List Core :=
  [tenants, clients, clientRedirectURIs, subjects, credentials, authCodes, revokedTokens,
    revocationCutoffs, events]

end Core

abbrev Database := Contents Core.Key Core.Row

/-! ## The calls of the gateway -/

/-- A call to a store; `t` is the clock of the database, and `now` that of the gateway. -/
inductive Call
  | insert (code : Bytes) (g : Store.Grant) (expiresAt : ℤ)
  | redeem (now : ℤ) (code clientID redirectURI : Bytes)
  | deleteExpiredCodes (t : ℤ)
  | revokeToken (jti : Bytes) (forgetAfter : ℤ)
  | revokeSubject (t : ℤ) (tenantID subjectID : Bytes)
  | revokeTenant (t : ℤ) (tenantID : Bytes)
  | isRevoked (jti tenantID subjectID : Bytes) (issuedAt : ℤ)
  | deleteExpiredTokens (t : ℤ)

/-- What a statement of a store is answered. -/
inductive Reply
  | ok
  | row (r : Option AuthCode)
  | flag (b : Bool)

/-- What a caller of a store gets. -/
inductive Answer
  | ok (success : Bool)
  | grant (g : Except Store.RedeemError Store.Grant)
  | revoked (b : Option Bool)

/-- The row of a new code. -/
def rowOf (g : Store.Grant) (expiresAt : ℤ) : AuthCode :=
  ⟨g.tenantID, g.subjectID, g.clientID, g.redirectURI, g.scope, some g.nonce, g.codeChallenge,
    timestamptz g.authTime, timestamptz expiresAt⟩

def cut (t : ℤ) (tenantID subjectID : Bytes) : Statement Core.Key Core.Row Reply :=
  ⟨[], .upsert .revocationCutoffs (fun _ => ((tenantID, subjectID), t)) (max : ℤ → ℤ → ℤ) .ok⟩

namespace Call

/-- The texts that a statement is sent with. -/
def texts : Call → List Bytes
  | insert code g _ => [code, g.tenantID, g.subjectID, g.clientID, g.redirectURI, g.scope,
      g.nonce, g.codeChallenge]
  | redeem _ code _ _ => [code]
  | revokeToken jti _ => [jti]
  | revokeSubject _ tenantID subjectID => [tenantID, subjectID]
  | revokeTenant _ tenantID => [tenantID]
  | isRevoked jti tenantID subjectID _ => [jti, tenantID, subjectID]
  | deleteExpiredCodes _ | deleteExpiredTokens _ => []

def statement : Call → Statement Core.Key Core.Row Reply
  | insert code g expiresAt => ⟨[], .insert .authCodes (fun _ => [(code, rowOf g expiresAt)]) .ok⟩
  | redeem _ code _ _ => ⟨[.authCodes], .delete .authCodes (fun _ (k : Bytes) _ => k = code)
      fun (gone : Dict Bytes AuthCode) => .row (gone.get code)⟩
  | deleteExpiredCodes t => ⟨[.authCodes],
      .delete .authCodes (fun _ _ (row : AuthCode) => row.expiresAt < t) fun _ => .ok⟩
  | revokeToken jti forgetAfter => ⟨[], .upsert .revokedTokens
      (fun _ => (jti, timestamptz forgetAfter)) (max : ℤ → ℤ → ℤ) .ok⟩
  | revokeSubject t tenantID subjectID => cut t tenantID subjectID
  | revokeTenant t tenantID => cut t tenantID []
  | isRevoked jti tenantID subjectID issuedAt => ⟨[.revokedTokens, .revocationCutoffs],
      .select fun c =>
        let tokens : Dict Bytes ℤ := c .revokedTokens
        let cutoffs : Dict (Bytes × Bytes) ℤ := c .revocationCutoffs
        .flag ((tokens.get jti).isSome || [subjectID, []].any fun s =>
          Store.Revocations.reaches issuedAt (cutoffs.get (tenantID, s)))⟩
  | deleteExpiredTokens t => ⟨[.revokedTokens],
      .delete .revokedTokens (fun _ _ (forget : ℤ) => forget < t) fun _ => .ok⟩

/-- What the caller makes of the reply. The clock is read after it. -/
def read : Call → Result Reply → Answer
  | redeem now _ clientID redirectURI, .done (.row (some row)) =>
    let g := Store.Codes.scan row
    if row.expiresAt < now then .grant (.error .notFound)
    else if g.clientID ≠ clientID ∨ g.redirectURI ≠ redirectURI then .grant (.error .notFound)
    else .grant (.ok g)
  | redeem .., .done _ => .grant (.error .notFound)
  | redeem .., _ => .grant (.error .database)
  | isRevoked .., .done (.flag b) => .revoked (some b)
  | isRevoked .., _ => .revoked none
  | _, .done _ => .ok true
  | _, _ => .ok false

end Call

/-- What is sent to the database: calls of the gateway's stores, and statements of the other
services. -/
inductive Input
  | gateway (call : Call)
  | service (r : Role) (h : r ≠ .gatewaySvc) (st : Statement Core.Key Core.Row Reply)

/-- A text that cannot be read fails the statement that it comes with. -/
def serve (c : Database) : Input → Option Answer × Database
  | .gateway call =>
    if call.texts.all storable then
      let res := Grants.serve Core.layout Core.created c (.gatewaySvc, call.statement)
      (some (call.read res.1), res.2)
    else (some (call.read .failed), c)
  | .service r _ st => (none, (Grants.serve Core.layout Core.created c (r, st)).2)

/-! ## The stores on their own -/

structure Stores where
  codes : Store.Codes
  revocations : Store.Revocations

/-- A statement of the revocation store that may fail. -/
def Stores.revoke (s : Stores) (r : Option Store.Revocations) : Answer × Stores :=
  match r with
  | none => (.ok false, s)
  | some r => (.ok true, { s with revocations := r })

/-- The stores as they are for a gateway that has the database to itself. -/
def Stores.call (s : Stores) : Call → Answer × Stores
  | .insert code g expiresAt =>
    match s.codes.insert code g expiresAt with
    | none => (.ok false, s)
    | some codes => (.ok true, { s with codes := codes })
  | .redeem now code clientID redirectURI =>
    let res := s.codes.redeem now code clientID redirectURI
    (.grant res.1, { s with codes := res.2 })
  | .deleteExpiredCodes t => (.ok true, { s with codes := s.codes.deleteExpired t })
  | .revokeToken jti forgetAfter => s.revoke (s.revocations.revokeToken jti forgetAfter)
  | .revokeSubject t tenantID subjectID =>
    s.revoke (s.revocations.revokeSubject t tenantID subjectID)
  | .revokeTenant t tenantID => s.revoke (s.revocations.revokeTenant t tenantID)
  | .isRevoked jti tenantID subjectID issuedAt =>
    (.revoked (s.revocations.isRevoked jti tenantID subjectID issuedAt), s)
  | .deleteExpiredTokens t =>
    (.ok true, { s with revocations := s.revocations.deleteExpired t })

/-! ## Refinement -/

section refinement
variable {c : Database} {s : Stores} {call : Call} {r : Role}

/-- The tables hold what the stores do. -/
structure Holds (c : Database) (s : Stores) : Prop where
  codes : ∀ code : Bytes, (c .authCodes).get code = s.codes.authCodes.get code
  tokens : ∀ jti : Bytes, (c .revokedTokens).get jti = s.revocations.revokedTokens.get jti
  cutoffs : ∀ key : Bytes × Bytes, (c .revocationCutoffs).get key = s.revocations.cutoffs.get key

/-- The gateway has the privileges that its stores need, and no other role has them. -/
lemma needs_gateway : (call.statement.needs.all fun n =>
    (migrated Core.layout.part Core.created).allows Core.layout.part .gatewaySvc n.1 n.2) =
      true := by
  cases call <;> rfl

lemma denied (hr : r ≠ .gatewaySvc) : (call.statement.needs.all fun n =>
    (migrated Core.layout.part Core.created).allows Core.layout.part r n.1 n.2) = false := by
  cases r with
  | gatewaySvc => exact absurd rfl hr
  | apiSvc => cases call <;> rfl
  | workerSvc => cases call <;> rfl
  | aiSvc => cases call <;> rfl

/-- The tables of the stores. -/
def Own (t : Core) : Prop := t = .authCodes ∨ t = .revokedTokens ∨ t = .revocationCutoffs

/-- Nothing refers to the tables of the stores, and they refer to nothing. -/
lemma accepts_own {t : Core} (ht : Own t) (rows : List (Core.Key t × Core.Row t)) (c : Database) :
    Core.layout.accepts t rows c = rows.all fun e => Core.checkRow t e.1 e.2 := by
  rcases ht with rfl | rfl | rfl <;>
    simp [Layout.accepts, Core.layout, Core.references, Core.unique]

lemma cascade_own {t : Core} (ht : Own t) (c : Database) : cascade Core.references t c = c := by
  rcases ht with rfl | rfl | rfl <;> simp [cascade, Core.references, prune]

/-- An insertion fails if the code is there. -/
lemma exec_insert {code : Bytes} {g : Store.Grant} {expiresAt : ℤ} (seen : Database)
    (htexts : (Call.insert code g expiresAt).texts.all storable = true) :
    Core.layout.exec c seen (Call.insert code g expiresAt).statement.command =
      if (c .authCodes).get code = none then
        some (.ok, Function.update c .authCodes ((c .authCodes).set code (rowOf g expiresAt)))
      else none := by
  have hrow : Core.checkRow .authCodes code (rowOf g expiresAt) = true := by
    simp only [Call.texts, List.all_cons, List.all_nil, Bool.and_true, Bool.and_eq_true] at htexts
    simp [Core.checkRow, rowOf, htexts]
  have hone : ([code] : List (Core.Key .authCodes)).Nodup := List.nodup_singleton code
  simp [Call.statement, Layout.exec, Layout.commit, accepts_own (.inl rfl), hrow, hone]

lemma exec_upsert {t : Core} (ht : Own t) (seen : Database) (row : Core.Key t × Core.Row t)
    (merge : Core.Row t → Core.Row t → Core.Row t)
    (hrow : ∀ v, Core.checkRow t row.1 v = true) :
    Core.layout.exec c seen (.upsert t (fun _ => row) merge Reply.ok) =
      some (.ok, Function.update c t
        ((c t).set row.1 (((c t).get row.1).elim row.2 (merge · row.2)))) := by
  simp [Layout.exec, Layout.commit, accepts_own ht, hrow]

lemma exec_delete {t : Core} (ht : Own t) (seen : Database)
    (drops : Database → Core.Key t → Core.Row t → Bool)
    (answer : Dict (Core.Key t) (Core.Row t) → Reply) :
    Core.layout.exec c seen (.delete t drops answer) =
      some (answer ((c t).retain (drops seen)),
        Function.update c t ((c t).retain fun k v => !drops seen k v)) := by
  simp only [Layout.exec]
  rw [show Core.layout.references = Core.references from rfl, cascade_own ht]

/-- What comes of a statement of the gateway. -/
lemma serve_gateway (htexts : call.texts.all storable = true) :
    serve c (.gateway call) =
      match Core.layout.exec c (visible call.statement.reads c) call.statement.command with
      | none => (some (call.read .failed), c)
      | some (a, c') => (some (call.read (.done a)), c') := by
  unfold serve Grants.serve Layout.serve
  dsimp only
  rw [if_pos htexts, if_pos needs_gateway]
  cases Core.layout.exec c (visible call.statement.reads c) call.statement.command <;> rfl

/-- The statements of the stores are denied to the other services. -/
lemma serve_denied (hr : r ≠ .gatewaySvc) :
    Grants.serve Core.layout Core.created c (r, call.statement) = (.denied, c) := by
  have hneeds : ¬ (call.statement.needs.all fun n =>
      (migrated Core.layout.part Core.created).allows Core.layout.part r n.1 n.2) = true := by
    rw [denied hr]
    exact Bool.false_ne_true
  exact if_neg hneeds

lemma serve_garbled (htexts : ¬ call.texts.all storable = true) :
    serve c (.gateway call) = (some (call.read .failed), c) := if_neg htexts

lemma Holds.setCodes (h : Holds c s) {d : Dict Bytes AuthCode} {codes : Store.Codes}
    (hd : ∀ code, d.get code = codes.authCodes.get code) :
    Holds (Function.update c .authCodes d) { s with codes := codes } :=
  ⟨hd, h.tokens, h.cutoffs⟩

lemma Holds.setTokens (h : Holds c s) {d tokens : Dict Bytes ℤ}
    (hd : ∀ jti, d.get jti = tokens.get jti) : Holds (Function.update c .revokedTokens d)
      { s with revocations := { s.revocations with revokedTokens := tokens } } :=
  ⟨h.codes, hd, h.cutoffs⟩

lemma Holds.setCutoffs (h : Holds c s) {d cutoffs : Dict (Bytes × Bytes) ℤ}
    (hd : ∀ key, d.get key = cutoffs.get key) : Holds (Function.update c .revocationCutoffs d)
      { s with revocations := { s.revocations with cutoffs := cutoffs } } :=
  ⟨h.codes, h.tokens, hd⟩

/-- The database answers a call as the stores do, and stays in step with them. -/
def InStep (c : Database) (s : Stores) (call : Call) : Prop :=
  (serve c (.gateway call)).1 = some (s.call call).1 ∧
    Holds (serve c (.gateway call)).2 (s.call call).2

lemma inStep_insert {code : Bytes} {g : Store.Grant} {expiresAt : ℤ} (h : Holds c s) :
    InStep c s (.insert code g expiresAt) := by
  unfold InStep
  by_cases htexts : (Call.insert code g expiresAt).texts.all storable = true
  · rw [serve_gateway htexts, exec_insert _ htexts, h.codes]
    by_cases hfree : s.codes.authCodes.get code = none
    · have hins : s.codes.insert code g expiresAt =
          some ⟨s.codes.authCodes.set code (rowOf g expiresAt)⟩ := if_pos ⟨htexts, hfree⟩
      rw [if_pos hfree]
      simp only [Stores.call, hins]
      exact ⟨rfl, h.setCodes fun x => by rw [Dict.get_set, Dict.get_set, h.codes]⟩
    · have hins : s.codes.insert code g expiresAt = none := if_neg fun hall => hfree hall.2
      rw [if_neg hfree]
      simp only [Stores.call, hins]
      exact ⟨rfl, h⟩
  · rw [serve_garbled htexts]
    have hins : s.codes.insert code g expiresAt = none := if_neg fun hall => htexts hall.1
    simp only [Stores.call, hins]
    exact ⟨rfl, h⟩

lemma inStep_redeem {now : ℤ} {code clientID redirectURI : Bytes} (h : Holds c s) :
    InStep c s (.redeem now code clientID redirectURI) := by
  unfold InStep
  by_cases htexts : (Call.redeem now code clientID redirectURI).texts.all storable = true
  · have hcode : storable code = true := by simpa [Call.texts] using htexts
    have hgone : ((c .authCodes).retain fun (k : Bytes) _ => k = code).get code =
        s.codes.authCodes.get code := by
      rw [← h.codes]
      ext row
      simp [Dict.get_retain]
    rw [serve_gateway htexts, Call.statement, exec_delete (.inl rfl)]
    dsimp only
    rw [hgone]
    refine ⟨?_, h.setCodes fun x => ?_⟩
    · simp only [Stores.call, Store.Codes.redeem, hcode, Bool.not_true, Bool.false_eq_true,
        if_false]
      cases s.codes.authCodes.get code with
      | none => rfl
      | some row =>
        simp only [Call.read]
        split_ifs <;> rfl
    · rw [Store.Codes.get_redeem fun _ => hcode, ← h.codes]
      ext row
      rw [Dict.get_retain]
      split_ifs with hx
      · simp [hx]
      · simp [hx]
  · have hcode : storable code = false := by simpa [Call.texts] using htexts
    rw [serve_garbled htexts]
    simp only [Stores.call, Store.Codes.redeem, hcode]
    exact ⟨rfl, h⟩

lemma inStep_deleteExpiredCodes {t : ℤ} (h : Holds c s) :
    InStep c s (.deleteExpiredCodes t) := by
  unfold InStep
  rw [serve_gateway rfl, Call.statement, exec_delete (.inl rfl)]
  refine ⟨rfl, h.setCodes fun x => ?_⟩
  ext row
  rw [Store.Codes.deleteExpired, Dict.get_retain, Dict.get_retain, h.codes]

lemma inStep_revokeToken {jti : Bytes} {forgetAfter : ℤ} (h : Holds c s) :
    InStep c s (.revokeToken jti forgetAfter) := by
  unfold InStep
  by_cases htexts : (Call.revokeToken jti forgetAfter).texts.all storable = true
  · have hjti : storable jti = true := by simpa [Call.texts] using htexts
    rw [serve_gateway htexts, Call.statement,
      exec_upsert (.inr (.inl rfl)) _ (jti, timestamptz forgetAfter) _ fun _ => hjti]
    simp only [Stores.call, Stores.revoke, Store.Revocations.revokeToken, hjti, if_true]
    refine ⟨rfl, h.setTokens fun x => ?_⟩
    rw [Dict.get_set, Dict.get_set, h.tokens, h.tokens]
    rfl
  · have hjti : storable jti = false := by simpa [Call.texts] using htexts
    rw [serve_garbled htexts]
    simp only [Stores.call, Stores.revoke, Store.Revocations.revokeToken, hjti]
    exact ⟨rfl, h⟩

/-- A cutoff of a subject, or of a tenant under the empty one. -/
lemma serve_cut {t : ℤ} {tenantID subjectID : Bytes} (h : Holds c s)
    (hstatement : call.statement = cut t tenantID subjectID)
    (htexts : call.texts.all storable = true ↔
      storable tenantID = true ∧ storable subjectID = true)
    (hread : call.read .failed = .ok false ∧ call.read (.done .ok) = .ok true)
    (hcall : s.call call = s.revoke (s.revocations.revokeSubject t tenantID subjectID)) :
    InStep c s call := by
  unfold InStep
  rw [hcall]
  by_cases hall : storable tenantID = true ∧ storable subjectID = true
  · have hrow : ∀ v, Core.checkRow .revocationCutoffs (tenantID, subjectID) v = true := by
      intro v
      simp [Core.checkRow, hall]
    rw [serve_gateway (htexts.mpr hall), hstatement, cut,
      exec_upsert (.inr (.inr rfl)) _ _ _ hrow]
    simp only [Stores.revoke, Store.Revocations.revokeSubject, hall, and_self, if_true, hread.2]
    refine ⟨trivial, h.setCutoffs fun x => ?_⟩
    rw [Dict.get_set, Dict.get_set, h.cutoffs, h.cutoffs]
    rfl
  · rw [serve_garbled fun hsame => hall (htexts.mp hsame), hread.1]
    simp only [Stores.revoke, Store.Revocations.revokeSubject, hall, if_false]
    exact ⟨trivial, h⟩

lemma inStep_isRevoked {jti tenantID subjectID : Bytes} {issuedAt : ℤ} (h : Holds c s) :
    InStep c s (.isRevoked jti tenantID subjectID issuedAt) := by
  unfold InStep
  by_cases htexts : (Call.isRevoked jti tenantID subjectID issuedAt).texts.all storable = true
  · rw [serve_gateway htexts]
    have hquery : s.revocations.isRevoked jti tenantID subjectID issuedAt =
        some ((s.revocations.revokedTokens.get jti).isSome || [subjectID, []].any fun x =>
          Store.Revocations.reaches issuedAt (s.revocations.cutoffs.get (tenantID, x))) :=
      if_pos htexts
    simp only [Stores.call, hquery, ← h.tokens, ← h.cutoffs]
    exact ⟨rfl, h⟩
  · rw [serve_garbled htexts]
    have hquery : s.revocations.isRevoked jti tenantID subjectID issuedAt = none := if_neg htexts
    simp only [Stores.call, hquery]
    exact ⟨rfl, h⟩

lemma inStep_deleteExpiredTokens {t : ℤ} (h : Holds c s) :
    InStep c s (.deleteExpiredTokens t) := by
  unfold InStep
  rw [serve_gateway rfl, Call.statement, exec_delete (.inr (.inl rfl))]
  refine ⟨rfl, h.setTokens fun x => ?_⟩
  ext forget
  rw [Dict.get_retain, Dict.get_retain, h.tokens]

/-- Every call of the gateway takes the database and the stores along together. -/
lemma inStep (h : Holds c s) : InStep c s call := by
  cases call with
  | insert code g expiresAt => exact inStep_insert h
  | redeem now code clientID redirectURI => exact inStep_redeem h
  | deleteExpiredCodes t => exact inStep_deleteExpiredCodes h
  | revokeToken jti forgetAfter => exact inStep_revokeToken h
  | revokeSubject t tenantID subjectID =>
    exact serve_cut h rfl (by simp [Call.texts]) ⟨rfl, rfl⟩ rfl
  | revokeTenant t tenantID =>
    have hempty : storable [] = true := by decide
    exact serve_cut h rfl (by simp [Call.texts, hempty]) ⟨rfl, rfl⟩ rfl
  | isRevoked jti tenantID subjectID issuedAt => exact inStep_isRevoked h
  | deleteExpiredTokens t => exact inStep_deleteExpiredTokens h

/-- The statements of the other services leave the tables of the stores alone. -/
lemma holds_service {hr : r ≠ .gatewaySvc} {st : Statement Core.Key Core.Row Reply}
    (h : Holds c s) : Holds (serve c (.service r hr st)).2 s := by
  have hwrites : writes r .gateway = false := by
    cases r with
    | gatewaySvc => exact absurd rfl hr
    | apiSvc | workerSvc | aiSvc => rfl
  have hsame : ∀ t : Core, t.schema = .gateway → (serve c (.service r hr st)).2 t = c t := by
    intro t ht
    have hquiet : ∀ i ∈ [(r, st)], writes i.1 (Core.layout.part t) = false := by
      intro i hi
      rw [List.mem_singleton.mp hi, show Core.layout.part t = .gateway from ht]
      exact hwrites
    exact schema_writers.1 hquiet
  refine ⟨fun code => ?_, fun jti => ?_, fun key => ?_⟩
  · rw [hsame .authCodes rfl, h.codes]
  · rw [hsame .revokedTokens rfl, h.tokens]
  · rw [hsame .revocationCutoffs rfl, h.cutoffs]

end refinement

/-! ## Runs -/

def Stores.new : Stores := ⟨.new, .new⟩

def Database.empty : Database := fun _ => Dict.empty

def Input.isGateway : Input → Bool
  | .gateway _ => true
  | .service .. => false

/-- The stores without a database. -/
def alone (s : Stores) : Input → Option Answer × Stores
  | .gateway call => (some (s.call call).1, (s.call call).2)
  | .service .. => (none, s)

/-- Whatever the other services send to the database, in whatever order, the stores of the gateway
answer every call as if they had the database to themselves; and the statements of the stores are
for no other service to send. -/
theorem stores_undisturbed {is : List Input} :
    (Machine.transcript serve .empty is).filter (fun x => x.1.isGateway) =
        Machine.transcript alone .new (is.filter Input.isGateway) ∧
      ∀ c r call, r ≠ .gatewaySvc →
        Grants.serve Core.layout Core.created c (r, Call.statement call) = (.denied, c) := by
  refine ⟨(Machine.transcript_filter (R := fun _ c s => Holds c s) ?_ ?_ ?_).1, ?_⟩
  · exact ⟨fun _ => rfl, fun _ => rfl, fun _ => rfl⟩
  · intro i is c s h hi
    cases i with
    | gateway call => cases hi
    | service r hr st => exact holds_service h
  · intro i is c s h hi
    cases i with
    | gateway call => exact inStep h
    | service r hr st => cases hi
  · exact fun c r call hr => serve_denied hr

end AiAuth.SharedStores
