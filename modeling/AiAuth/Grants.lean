import AiAuth.Library.Tables
import Mathlib.Data.Fintype.Basic
import Mathlib.Data.List.ProdSigma

/-!
# Roles and grants

Every service has a role and a schema of its own. The migrations give the roles their privileges on
the tables that are created after them, whatever tables those are. Nobody may edit what is in an
audit table, and nobody has anything to do with the tables of the risk schema but their owner.
-/
namespace AiAuth.Grants
open Library Tables

inductive Role
  | gatewaySvc
  | apiSvc
  | workerSvc
  | aiSvc
  deriving DecidableEq

instance : Fintype Role :=
  .ofList [.gatewaySvc, .apiSvc, .workerSvc, .aiSvc] fun r => by cases r <;> decide

inductive Schema
  | gateway
  | control
  | risk
  | audit
  deriving DecidableEq

instance : Fintype Schema :=
  .ofList [.gateway, .control, .risk, .audit] fun s => by cases s <;> decide

/-! ## Migrations -/

inductive Command (τ : Type)
  | grantUsage (schemas : List Schema) (roles : List Role)
  | alterDefaultPrivileges (schema : Schema) (privileges : List Privilege) (roles : List Role)
  | createTable (t : τ)

/-- What the migrations leave: who may use which schema, the privileges that a new table of a
schema gets, and those of the tables that there are. -/
structure Catalog (τ : Type) where
  usage : List (Schema × Role)
  defaults : List (Schema × Privilege × Role)
  tables : List τ
  acl : List (τ × Privilege × Role)

namespace Catalog
variable {τ : Type} [DecidableEq τ] (schema : τ → Schema)

def empty : Catalog τ := ⟨[], [], [], []⟩

/-- A table that is there already is not created again. -/
def run (c : Catalog τ) : Command τ → Catalog τ
  | .grantUsage schemas roles => { c with usage := c.usage ++ schemas.product roles }
  | .alterDefaultPrivileges s privileges roles =>
    { c with defaults := c.defaults ++ (privileges.product roles).map (s, ·) }
  | .createTable t =>
    if t ∈ c.tables then c
    else { c with
      tables := t :: c.tables
      acl := c.acl ++ (c.defaults.filter (·.1 = schema t)).map fun d => (t, d.2) }

def allows (c : Catalog τ) (r : Role) (t : τ) (q : Privilege) : Bool :=
  (schema t, r) ∈ c.usage && (t, q, r) ∈ c.acl

end Catalog

/-- Everything but emptying a table at once. -/
def readWrite : List Privilege := [.select, .insert, .update, .delete]

/-- The first migration. -/
def schemasAndRoles (τ : Type) : List (Command τ) :=
  [.grantUsage [.gateway] [.gatewaySvc],
    .grantUsage [.control] [.gatewaySvc],
    .alterDefaultPrivileges .gateway readWrite [.gatewaySvc],
    .alterDefaultPrivileges .control [.select] [.gatewaySvc],
    .grantUsage [.control] [.apiSvc],
    .alterDefaultPrivileges .control readWrite [.apiSvc],
    .grantUsage [.control, .audit] [.workerSvc],
    .alterDefaultPrivileges .control [.select] [.workerSvc],
    .alterDefaultPrivileges .audit [.select] [.workerSvc],
    .grantUsage [.risk] [.aiSvc],
    .alterDefaultPrivileges .risk readWrite [.aiSvc],
    .grantUsage [.audit] [.gatewaySvc, .apiSvc],
    .alterDefaultPrivileges .audit [.insert] [.gatewaySvc, .apiSvc]]

/-- What a role may do with the tables of a schema. -/
def granted : Role → Schema → List Privilege
  | .gatewaySvc, .gateway => readWrite
  | .gatewaySvc, .control => [.select]
  | .gatewaySvc, .audit => [.insert]
  | .apiSvc, .control => readWrite
  | .apiSvc, .audit => [.insert]
  | .workerSvc, .control => [.select]
  | .workerSvc, .audit => [.select]
  | .aiSvc, .risk => readWrite
  | _, _ => []

section migrations
variable {τ : Type} [DecidableEq τ] {schema : τ → Schema} {later : List τ} {r : Role} {t : τ}
  {q : Privilege}

/-- The catalog after the first migration and later ones that create tables. -/
def migrated (schema : τ → Schema) (later : List τ) : Catalog τ :=
  (schemasAndRoles τ ++ later.map Command.createTable).foldl (Catalog.run schema) .empty

/-- Tables get the privileges that are the defaults of their schema at the time. -/
lemma acl_creates (c : Catalog τ) : ∃ tables acl,
    (later.map Command.createTable).foldl (Catalog.run schema) c =
      ⟨c.usage, c.defaults, tables, acl⟩ ∧
      ∀ t q r, (t, q, r) ∈ acl ↔
        (t, q, r) ∈ c.acl ∨ t ∈ later ∧ t ∉ c.tables ∧ (schema t, q, r) ∈ c.defaults := by
  induction later generalizing c with
  | nil => exact ⟨c.tables, c.acl, rfl, by simp⟩
  | cons t later ih =>
    rw [List.map_cons, List.foldl_cons]
    obtain ⟨tables, acl, heq, hacl⟩ := ih (c.run schema (.createTable t))
    by_cases ht : t ∈ c.tables
    · have hrun : c.run schema (.createTable t) = c := if_pos ht
      rw [hrun] at heq hacl ⊢
      refine ⟨tables, acl, heq, fun x q r => ?_⟩
      rw [hacl, List.mem_cons]
      constructor
      · exact fun h => h.imp_right fun h => ⟨.inr h.1, h.2⟩
      · rintro (h | ⟨rfl | h, hnew, hdefault⟩)
        · exact .inl h
        · exact absurd ht hnew
        · exact .inr ⟨h, hnew, hdefault⟩
    · have hrun : c.run schema (.createTable t) = { c with
          tables := t :: c.tables
          acl := c.acl ++ (c.defaults.filter (·.1 = schema t)).map fun d => (t, d.2) } := if_neg ht
      rw [hrun] at heq hacl ⊢
      refine ⟨tables, acl, heq, fun x q r => ?_⟩
      rw [hacl]
      simp only [List.mem_append, List.mem_map, List.mem_filter, List.mem_cons,
        decide_eq_true_eq, Prod.mk.injEq]
      constructor
      · rintro ((h | ⟨⟨s, d⟩, ⟨hd, rfl⟩, rfl, rfl⟩) | ⟨hx, hnew, hdefault⟩)
        · exact .inl h
        · exact .inr ⟨.inl rfl, ht, hd⟩
        · exact .inr ⟨.inr hx, fun h => hnew (.inr h), hdefault⟩
      · rintro (h | ⟨rfl | hx, hnew, hdefault⟩)
        · exact .inl (.inl h)
        · exact .inl (.inr ⟨(schema x, q, r), ⟨hdefault, rfl⟩, rfl, rfl⟩)
        · by_cases hxt : x = t
          · subst hxt
            exact .inl (.inr ⟨(schema x, q, r), ⟨hdefault, rfl⟩, rfl, rfl⟩)
          · exact .inr ⟨hx, fun h => h.elim hxt hnew, hdefault⟩

/-- Whatever tables are created later, a role has on them what it is granted for their schema. -/
theorem allows_iff : (migrated schema later).allows schema r t q = true ↔
    t ∈ later ∧ q ∈ granted r (schema t) := by
  rw [migrated, List.foldl_append]
  obtain ⟨tables, acl, heq, hacl⟩ := @acl_creates τ _ schema later
    ((schemasAndRoles τ).foldl (Catalog.run schema) .empty)
  rw [heq, Catalog.allows, Bool.and_eq_true, decide_eq_true_eq, decide_eq_true_eq, hacl]
  have hstart : (schemasAndRoles τ).foldl (Catalog.run schema) .empty =
      ⟨((schemasAndRoles Unit).foldl (Catalog.run fun _ => .risk) .empty).usage,
        ((schemasAndRoles Unit).foldl (Catalog.run fun _ => .risk) .empty).defaults, [], []⟩ := rfl
  rw [hstart]
  have hmatrix : ∀ s, ((s, r) ∈
        ((schemasAndRoles Unit).foldl (Catalog.run fun _ => .risk) .empty).usage ∧
      (s, q, r) ∈
        ((schemasAndRoles Unit).foldl (Catalog.run fun _ => .risk) .empty).defaults) ↔
      q ∈ granted r s := by
    intro s
    cases q <;> revert r s <;> decide
  rw [← hmatrix]
  simp only [List.not_mem_nil, not_false_eq_true, true_and, false_or]
  tauto

end migrations

/-! ## What the grants keep apart -/

section results
variable {τ ω : Type} [DecidableEq τ] {K V : τ → Type} [∀ t, DecidableEq (K t)]
  {L : Layout K V Schema} {later : List τ} {c : Contents K V} {is : List (Role × Statement K V ω)}
  {t : τ}

/-- A database whose tables later migrations create, with the privileges that they got. -/
def serve (L : Layout K V Schema) (later : List τ) (c : Contents K V)
    (i : Role × Statement K V ω) : Result ω × Contents K V :=
  L.serve ((migrated L.part later).allows L.part) c i

/-- The roles that can change the tables of a schema. -/
def writes (r : Role) (s : Schema) : Bool := (granted r s).any (· ≠ .select)

/-- Only its writers change what is in a schema, and what is in an audit table stays as it is. -/
theorem schema_writers : ((∀ i ∈ is, writes i.1 (L.part t) = false) →
      Machine.after (serve L later) c is t = c t) ∧
    (L.part t = .audit → ∀ k v, (c t).get k = some v →
      (Machine.after (serve L later) c is t).get k = some v) := by
  refine ⟨fun hquiet => ?_, fun ht k v hrow => ?_⟩
  · refine Layout.unwritten fun i hi t' q hpart hq => ?_
    obtain ⟨-, hgranted⟩ := allows_iff.mp hq
    have hnone := hquiet i hi
    rw [writes, hpart, List.any_eq_false] at hnone
    simpa using hnone q hgranted
  · refine Layout.kept (fun r t' q ht' hq => ?_) ht hrow
    obtain ⟨-, hgranted⟩ := allows_iff.mp hq
    rw [ht'] at hgranted
    cases r <;> simp [granted] at hgranted <;> simp [hgranted]

/-- Roles that see nothing of the others: the AI service, all but it, and all but the worker. -/
inductive Side
  | ai
  | services
  | writers
  deriving DecidableEq

def Side.has : Side → Role → Bool
  | .ai, r => r = .aiSvc
  | .services, r => r ≠ .aiSvc
  | .writers, r => r ≠ .workerSvc

lemma Side.apart (side : Side) (r r' : Role) (s : Schema) : side.has r = false →
    side.has r' = true → writes r s = true → granted r' s = [] := by
  cases side <;> revert r r' s <;> decide

/-- What the roles of one side are answered, in any run of statements of all roles, is what they
are answered without the statements of the others. -/
theorem roles_apart (side : Side) :
    (Machine.transcript (serve L later) c is).filter (fun x => side.has x.1.1) =
      Machine.transcript (serve L later) c (is.filter fun i => side.has i.1) := by
  refine (Layout.isolated fun r t q hr hq hwrite ⟨r', t', q', hr', hq', hpart⟩ => ?_).1
  obtain ⟨-, hgranted⟩ := allows_iff.mp hq
  obtain ⟨-, hgranted'⟩ := allows_iff.mp hq'
  rw [hpart] at hgranted'
  generalize L.part t = s at hgranted hgranted'
  have hwrites : writes r s = true := List.any_eq_true.mpr ⟨q, hgranted, by simpa using hwrite⟩
  rw [side.apart r r' s hr hr' hwrites] at hgranted'
  cases hgranted'

end results
end AiAuth.Grants
