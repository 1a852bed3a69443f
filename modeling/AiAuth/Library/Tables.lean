import AiAuth.Library.Dict
import AiAuth.Library.Machine

/-!
# Tables under grants

A database is a family of keyed tables, some of whose rows refer to rows of others. Roles run
statements on it. A statement is executed if its role holds the privileges that it needs, and fails
as a whole when a constraint is broken. A deletion takes along the rows that refer to what is
deleted, whatever the privileges on those.
-/
namespace AiAuth.Library.Tables

inductive Privilege
  | select
  | insert
  | update
  | delete
  | truncate
  deriving DecidableEq

section shape
variable {τ : Type} (K V : τ → Type)

/-- The rows of every table under their primary keys. -/
abbrev Contents := ∀ t, Dict (K t) (V t)

/-- Rows of `child` may refer to rows of `parent`, and are deleted with them. -/
structure Reference where
  child : τ
  parent : τ
  key : K child → V child → Option (K parent)

/-- The constraints of a database. No reference leaves its part. -/
structure Layout (γ : Type) where
  part : τ → γ
  references : List (Reference K V)
  within : ∀ r ∈ references, part r.child = part r.parent
  checkRow : ∀ t, K t → V t → Bool
  unique : ∀ t, Dict (K t) (V t) → Bool

/-- What a statement does. It computes from the tables that it reads, and it is answered from them
or from the rows that it changes. -/
inductive Command (ω : Type)
  | select (query : Contents K V → ω)
  | insert (t : τ) (rows : Contents K V → List (K t × V t)) (answer : ω)
  | upsert (t : τ) (row : Contents K V → K t × V t) (merge : V t → V t → V t) (answer : ω)
  | update (t : τ) (set : Contents K V → K t → V t → K t × V t) (answer : Dict (K t) (V t) → ω)
  | delete (t : τ) (drops : Contents K V → K t → V t → Bool) (answer : Dict (K t) (V t) → ω)
  | truncate (t : τ) (answer : ω)

structure Statement (ω : Type) where
  reads : List τ
  command : Command K V ω

end shape

/-- What comes of a statement. -/
inductive Result (ω : Type)
  | denied
  | failed
  | done (a : ω)
  deriving DecidableEq

variable {τ γ ρ ω : Type} {K V : τ → Type}

/-- The table that a command changes. -/
def Command.target : Command K V ω → Option τ
  | select _ => none
  | insert t _ _ | upsert t _ _ _ | update t _ _ | delete t _ _ | truncate t _ => some t

/-- The privileges that a statement needs. -/
def Statement.needs (st : Statement K V ω) : List (τ × Privilege) :=
  st.reads.map (·, .select) ++ match st.command with
    | .select _ => []
    | .insert t _ _ => [(t, .insert)]
    | .upsert t _ _ _ => [(t, .insert), (t, .update), (t, .select)]
    | .update t _ _ => [(t, .update)]
    | .delete t _ _ => [(t, .delete)]
    | .truncate t _ => [(t, .truncate)]

section exec
variable [DecidableEq τ] [∀ t, DecidableEq (K t)]

/-- What a statement sees of a database. -/
def visible (reads : List τ) (c : Contents K V) : Contents K V :=
  fun t => if t ∈ reads then c t else Dict.empty

/-- The row refers to nothing, or to a row that is there. -/
def resolves (r : Reference K V) (c : Contents K V) (k : K r.child) (v : V r.child) : Bool :=
  (r.key k v).all fun p => ((c r.parent).get p).isSome

/-- Drop the rows of a child that have lost their parent, if rows of the parent may be gone. -/
def prune (s : List τ × Contents K V) (r : Reference K V) : List τ × Contents K V :=
  if r.parent ∈ s.1 then
    (r.child :: s.1, Function.update s.2 r.child ((s.2 r.child).retain (resolves r s.2)))
  else s

/-- The database after rows of `t` are deleted. References are in the order of their creation. -/
def cascade (refs : List (Reference K V)) (t : τ) (c : Contents K V) : Contents K V :=
  (refs.foldl prune ([t], c)).2

namespace Layout
variable (L : Layout K V γ)

/-- The constraints that new rows of `t` can break. -/
def accepts (t : τ) (rows : List (K t × V t)) (c : Contents K V) : Bool :=
  rows.all (fun e => L.checkRow t e.1 e.2) && L.unique t (c t) &&
    L.references.all fun r =>
      !(r.child = t || r.parent = t) || (c r.child).all (resolves r c)

def commit (t : τ) (rows : List (K t × V t)) (c : Contents K V) (answer : ω) :
    Option (ω × Contents K V) :=
  if L.accepts t rows c then some (answer, c) else none

/-- The answer and the database after a command, unless it fails. -/
def exec (c seen : Contents K V) : Command K V ω → Option (ω × Contents K V)
  | .select query => some (query seen, c)
  | .insert t rows answer =>
    let new := rows seen
    if (new.map Prod.fst).Nodup ∧ new.all fun e => ((c t).get e.1).isNone then
      L.commit t new (Function.update c t (new.foldl (fun d e => d.set e.1 e.2) (c t))) answer
    else none
  | .upsert t row merge answer =>
    let new := row seen
    let merged := ((c t).get new.1).elim new.2 (merge · new.2)
    L.commit t [(new.1, merged)] (Function.update c t ((c t).set new.1 merged)) answer
  | .update t set answer =>
    let new := (c t).entries.map fun e => set seen e.1 e.2
    if (new.map Prod.fst).Nodup then
      L.commit t new
        (Function.update c t (new.foldl (fun d e => d.set e.1 e.2) Dict.empty)) (answer (c t))
    else none
  | .delete t drops answer =>
    let gone := (c t).retain (drops seen)
    let left := (c t).retain fun k v => !drops seen k v
    some (answer gone, cascade L.references t (Function.update c t left))
  | .truncate t answer =>
    if L.references.any fun r => r.parent = t ∧ r.child ≠ t then none
    else some (answer, Function.update c t Dict.empty)

/-- A statement that a role sends; `allowed` are the privileges of the roles. -/
def serve (allowed : ρ → τ → Privilege → Bool) (c : Contents K V) (i : ρ × Statement K V ω) :
    Result ω × Contents K V :=
  if i.2.needs.all fun n => allowed i.1 n.1 n.2 then
    match L.exec c (visible i.2.reads c) i.2.command with
    | none => (.failed, c)
    | some (a, c') => (.done a, c')
  else (.denied, c)

end Layout

/-! ## Parts -/

namespace Layout
variable {L : Layout K V γ} {P : γ → Prop} {c c' seen seen' : Contents K V} {t : τ}
  {cmd : Command K V ω} {st : Statement K V ω} {g : γ}

/-- Both databases hold the same in the parts of `P`. -/
def Agree (L : Layout K V γ) (P : γ → Prop) (c c' : Contents K V) : Prop :=
  ∀ t, P (L.part t) → c t = c' t

omit [∀ t, DecidableEq (K t)] in
lemma Agree.update (h : L.Agree P c c') (d : Dict (K t) (V t)) :
    L.Agree P (Function.update c t d) (Function.update c' t d) := by
  intro t' ht'
  by_cases heq : t' = t
  · subst heq
    simp
  · simpa [heq] using h t' ht'

omit [DecidableEq τ] in
lemma Agree.resolves (h : L.Agree P c c') {r : Reference K V} (hr : P (L.part r.parent)) :
    resolves r c = resolves r c' := by
  ext k v
  rw [Tables.resolves, Tables.resolves, h _ hr]

/-- Two cascades that start alike in the parts of `P`, from a table of `P`, go on alike. -/
lemma cascade_agree (h : L.Agree P c c') (ht : P (L.part t)) :
    L.Agree P (cascade L.references t c) (cascade L.references t c') := by
  have hfold : ∀ refs ⊆ L.references, ∀ touched c c', L.Agree P c c' →
      (∀ t ∈ touched, P (L.part t)) →
      L.Agree P (refs.foldl prune (touched, c)).2 (refs.foldl prune (touched, c')).2 := by
    intro refs
    induction refs with
    | nil => exact fun _ touched c c' h _ => h
    | cons r refs ih =>
      intro hsub touched c c' h htouched
      have hrest : refs ⊆ L.references := fun x hx => hsub (List.mem_cons_of_mem r hx)
      rw [List.foldl_cons, List.foldl_cons, prune, prune]
      dsimp only
      by_cases hparent : r.parent ∈ touched
      · have hP : P (L.part r.parent) := htouched _ hparent
        have hchild : P (L.part r.child) := by
          rw [L.within r (hsub List.mem_cons_self)]
          exact hP
        rw [if_pos hparent, if_pos hparent, h.resolves hP, h _ hchild]
        refine ih hrest _ _ _ (h.update _) fun t ht => ?_
        rcases List.mem_cons.mp ht with rfl | ht
        · exact hchild
        · exact htouched t ht
      · rw [if_neg hparent, if_neg hparent]
        exact ih hrest _ _ _ h htouched
  exact hfold _ (List.Subset.refl _) _ _ _ h fun t' ht' => List.mem_singleton.mp ht' ▸ ht

/-- A cascade stays in the part that it starts in. -/
lemma cascade_frame (t' : τ) (ht' : L.part t' ≠ L.part t) :
    cascade L.references t c t' = c t' := by
  have hfold : ∀ refs ⊆ L.references, ∀ touched c, (∀ x ∈ touched, L.part x = L.part t) →
      (refs.foldl prune (touched, c)).2 t' = c t' := by
    intro refs
    induction refs with
    | nil => exact fun _ touched c _ => rfl
    | cons r refs ih =>
      intro hsub touched c htouched
      have hrest : refs ⊆ L.references := fun x hx => hsub (List.mem_cons_of_mem r hx)
      rw [List.foldl_cons, prune]
      dsimp only
      by_cases hparent : r.parent ∈ touched
      · have hchild : L.part r.child = L.part t := by
          rw [L.within r (hsub List.mem_cons_self)]
          exact htouched _ hparent
        rw [if_pos hparent, ih hrest]
        · have hne : t' ≠ r.child := fun heq => ht' (heq ▸ hchild)
          exact Function.update_of_ne hne _ _
        · intro x hx
          rcases List.mem_cons.mp hx with rfl | hx
          · exact hchild
          · exact htouched x hx
      · rw [if_neg hparent]
        exact ih hrest _ _ htouched
  exact hfold _ (List.Subset.refl _) _ _ fun x hx => by rw [List.mem_singleton.mp hx]

/-- The constraints on new rows are those of one part. -/
lemma accepts_agree (h : L.Agree P c c') (ht : P (L.part t)) (rows : List (K t × V t)) :
    L.accepts t rows c = L.accepts t rows c' := by
  have hrefs : (L.references.all fun r =>
      !(r.child = t || r.parent = t) || (c r.child).all (resolves r c)) =
      L.references.all fun r =>
        !(r.child = t || r.parent = t) || (c' r.child).all (resolves r c') := by
    rw [Bool.eq_iff_iff, List.all_eq_true, List.all_eq_true]
    refine forall₂_congr fun r hr => ?_
    by_cases hnear : r.child = t ∨ r.parent = t
    · have hpart : L.part r.child = L.part t ∧ L.part r.parent = L.part t := by
        have hwithin := L.within r hr
        rcases hnear with heq | heq
        · exact ⟨by rw [heq], by rw [← hwithin, heq]⟩
        · exact ⟨by rw [hwithin, heq], by rw [heq]⟩
      have hchild : P (L.part r.child) := by rwa [hpart.1]
      have hparent : P (L.part r.parent) := by rwa [hpart.2]
      rw [h _ hchild, h.resolves hparent]
    · simp [not_or.mp hnear]
  rw [accepts, accepts, hrefs, h t ht]

/-- Both outcomes are failures, or alike in their answer and in the parts of `P`. -/
def Alike (L : Layout K V γ) (P : γ → Prop) : Option (ω × Contents K V) →
    Option (ω × Contents K V) → Prop :=
  Option.Rel fun x y => x.1 = y.1 ∧ L.Agree P x.2 y.2

lemma commit_alike (h : L.Agree P c c') (ht : P (L.part t)) (rows : List (K t × V t)) (a : ω) :
    L.Alike P (L.commit t rows c a) (L.commit t rows c' a) := by
  rw [commit, commit, accepts_agree h ht]
  split_ifs
  · exact .some ⟨rfl, h⟩
  · exact .none

/-- A command finds out nothing of other parts than those of what it sees and of its table. -/
lemma exec_alike (h : L.Agree P c c') (ht : ∀ t ∈ cmd.target, P (L.part t)) :
    L.Alike P (L.exec c seen cmd) (L.exec c' seen cmd) := by
  cases cmd with
  | select query => exact .some ⟨rfl, h⟩
  | insert t rows answer =>
    have hP : P (L.part t) := ht t rfl
    rw [exec, exec, h t hP]
    split_ifs
    · exact commit_alike (h.update _) hP _ _
    · exact .none
  | upsert t row merge answer =>
    have hP : P (L.part t) := ht t rfl
    rw [exec, exec, h t hP]
    exact commit_alike (h.update _) hP _ _
  | update t set answer =>
    have hP : P (L.part t) := ht t rfl
    rw [exec, exec, h t hP]
    split_ifs
    · exact commit_alike (h.update _) hP _ _
    · exact .none
  | delete t drops answer =>
    have hP : P (L.part t) := ht t rfl
    rw [exec, exec, h t hP]
    exact .some ⟨rfl, cascade_agree (h.update _) hP⟩
  | truncate t answer =>
    rw [exec, exec]
    split_ifs
    · exact .none
    · exact .some ⟨rfl, h.update _⟩

/-- A command changes nothing outside the part of its table. -/
lemma exec_frame {a : ω} (h : L.exec c seen cmd = some (a, c')) (t' : τ)
    (ht' : ∀ t ∈ cmd.target, L.part t' ≠ L.part t) : c' t' = c t' := by
  have hcommit : ∀ {t : τ} {rows : List (K t × V t)} {d : Dict (K t) (V t)} {b : ω},
      L.part t' ≠ L.part t → L.commit t rows (Function.update c t d) b = some (a, c') →
      c' t' = c t' := by
    intro t rows d b hpart h
    rw [commit] at h
    split_ifs at h
    obtain ⟨-, rfl⟩ := Prod.mk.inj (Option.some.inj h)
    have hne : t' ≠ t := fun heq => hpart (heq ▸ rfl)
    exact Function.update_of_ne hne _ _
  cases cmd with
  | select query =>
    obtain ⟨-, rfl⟩ := Prod.mk.inj (Option.some.inj h)
    rfl
  | insert t rows answer =>
    simp only [exec] at h
    split_ifs at h
    exact hcommit (ht' t rfl) h
  | upsert t row merge answer => exact hcommit (ht' t rfl) h
  | update t set answer =>
    simp only [exec] at h
    split_ifs at h
    exact hcommit (ht' t rfl) h
  | delete t drops answer =>
    obtain ⟨-, rfl⟩ := Prod.mk.inj (Option.some.inj h)
    have hne : t' ≠ t := fun heq => ht' t rfl (heq ▸ rfl)
    rw [cascade_frame t' (ht' t rfl)]
    exact Function.update_of_ne hne _ _
  | truncate t answer =>
    simp only [exec] at h
    split_ifs at h
    obtain ⟨-, rfl⟩ := Prod.mk.inj (Option.some.inj h)
    have hne : t' ≠ t := fun heq => ht' t rfl (heq ▸ rfl)
    exact Function.update_of_ne hne _ _

end Layout

/-! ## Runs -/

namespace Layout
variable {L : Layout K V γ} {allowed : ρ → τ → Privilege → Bool} {c c' : Contents K V}
  {i : ρ × Statement K V ω} {is : List (ρ × Statement K V ω)} {t : τ} {g : γ}

omit [DecidableEq τ] [∀ t, DecidableEq (K t)] in
/-- A command that changes a table inserts into it or needs more than that. -/
lemma target_beyond {st : Statement K V ω} (h : st.command.target = some t) :
    (∃ rows answer, st.command = .insert t rows answer ∧ (t, .insert) ∈ st.needs) ∨
      ∃ q, q ≠ .select ∧ q ≠ .insert ∧ (t, q) ∈ st.needs := by
  obtain ⟨reads, cmd⟩ := st
  cases cmd with
  | select query => cases h
  | insert t' rows answer =>
    obtain rfl := Option.some.inj h
    exact .inl ⟨rows, answer, rfl, by simp [Statement.needs]⟩
  | upsert t' row merge answer =>
    obtain rfl := Option.some.inj h
    exact .inr ⟨.update, by decide, by decide, by simp [Statement.needs]⟩
  | update t' set answer =>
    obtain rfl := Option.some.inj h
    exact .inr ⟨.update, by decide, by decide, by simp [Statement.needs]⟩
  | delete t' drops answer =>
    obtain rfl := Option.some.inj h
    exact .inr ⟨.delete, by decide, by decide, by simp [Statement.needs]⟩
  | truncate t' answer =>
    obtain rfl := Option.some.inj h
    exact .inr ⟨.truncate, by decide, by decide, by simp [Statement.needs]⟩

omit [DecidableEq τ] [∀ t, DecidableEq (K t)] in
lemma target_needs {st : Statement K V ω} (h : st.command.target = some t) :
    ∃ q, q ≠ .select ∧ (t, q) ∈ st.needs := by
  rcases target_beyond h with ⟨rows, answer, -, hmem⟩ | ⟨q, hq, -, hmem⟩
  · exact ⟨.insert, by decide, hmem⟩
  · exact ⟨q, hq, hmem⟩

/-- A statement that changes the database was executed with its privileges. -/
lemma serve_cases : (L.serve allowed c i).2 = c ∨
    (∀ n ∈ i.2.needs, allowed i.1 n.1 n.2 = true) ∧
      ∃ a, L.exec c (visible i.2.reads c) i.2.command = some (a, (L.serve allowed c i).2) := by
  rw [serve]
  split_ifs with hneeds
  · cases hexec : L.exec c (visible i.2.reads c) i.2.command with
    | none => exact .inl rfl
    | some x => exact .inr ⟨List.all_eq_true.mp hneeds, x.1, rfl⟩
  · exact .inl rfl

section isolation
variable {p : ρ → Bool}

/-- The parts in which a role of `p` holds a privilege. -/
def Reached (L : Layout K V γ) (allowed : ρ → τ → Privilege → Bool) (p : ρ → Bool) (g : γ) : Prop :=
  ∃ r t q, p r = true ∧ allowed r t q = true ∧ L.part t = g

/-- No role outside `p` may change a table in a part that a role of `p` has anything to do with. -/
def Separate (L : Layout K V γ) (allowed : ρ → τ → Privilege → Bool) (p : ρ → Bool) : Prop :=
  ∀ r t q, p r = false → allowed r t q = true → q ≠ .select → ¬ L.Reached allowed p (L.part t)

lemma serve_hidden (hsep : L.Separate allowed p) (hi : p i.1 = false)
    (h : L.Agree (L.Reached allowed p) c c') :
    L.Agree (L.Reached allowed p) (L.serve allowed c i).2 c' := by
  intro t ht
  rw [← h t ht]
  rcases @serve_cases _ _ _ _ _ _ _ _ L allowed c i with hsame | ⟨hneeds, a, hexec⟩
  · rw [hsame]
  · refine exec_frame hexec t fun t' ht' heq => ?_
    obtain ⟨q, hq, hmem⟩ := target_needs ht'
    exact hsep i.1 t' q hi (hneeds _ hmem) hq (heq ▸ ht)

lemma serve_seen (hi : p i.1 = true) (h : L.Agree (L.Reached allowed p) c c') :
    (L.serve allowed c i).1 = (L.serve allowed c' i).1 ∧
      L.Agree (L.Reached allowed p) (L.serve allowed c i).2 (L.serve allowed c' i).2 := by
  rw [serve, serve]
  split_ifs with hneeds
  · have hallowed : ∀ n ∈ i.2.needs, L.Reached allowed p (L.part n.1) := fun n hn =>
      ⟨i.1, n.1, n.2, hi, List.all_eq_true.mp hneeds n hn, rfl⟩
    have hseen : visible i.2.reads c = visible i.2.reads c' := by
      funext t
      rw [visible, visible]
      split_ifs with ht
      · exact h t (hallowed (t, .select) (by simp [Statement.needs, ht]))
      · rfl
    have htarget : ∀ t ∈ i.2.command.target, L.Reached allowed p (L.part t) := fun t ht => by
      obtain ⟨q, -, hmem⟩ := target_needs ht
      exact hallowed (t, q) hmem
    have halike : L.Alike (L.Reached allowed p) (L.exec c (visible i.2.reads c') i.2.command)
        (L.exec c' (visible i.2.reads c') i.2.command) := exec_alike h htarget
    rw [hseen]
    revert halike
    cases L.exec c (visible i.2.reads c') i.2.command <;>
      cases L.exec c' (visible i.2.reads c') i.2.command <;> intro halike <;> cases halike
    · exact ⟨rfl, h⟩
    next hboth => exact ⟨congrArg Result.done hboth.1, hboth.2⟩
  · exact ⟨rfl, h⟩

/-- What the roles of `p` are answered, and what they find, does not depend on the statements of
roles that are separate from them. -/
theorem isolated (hsep : L.Separate allowed p) :
    (Machine.transcript (L.serve allowed) c is).filter (fun x => p x.1.1) =
        Machine.transcript (L.serve allowed) c (is.filter fun i => p i.1) ∧
      L.Agree (L.Reached allowed p) (Machine.after (L.serve allowed) c is)
        (Machine.after (L.serve allowed) c (is.filter fun i => p i.1)) :=
  Machine.transcript_filter (R := fun _ c c' => L.Agree (L.Reached allowed p) c c')
    (p := fun i : ρ × Statement K V ω => p i.1) (fun _ _ => rfl)
    (fun _ _ _ _ h hi => serve_hidden hsep hi h) fun _ _ _ _ h hi => serve_seen hi h

end isolation

section growth

/-- Where no role of a run may do more than read, nothing changes. -/
theorem unwritten (h : ∀ i ∈ is, ∀ t' q, L.part t = L.part t' → allowed i.1 t' q = true →
    q = .select) : Machine.after (L.serve allowed) c is t = c t := by
  refine (Machine.transcript_invariant (I := fun c' : Contents K V => c' t = c t) rfl h
    fun c' i hsame hi => ?_).2
  rcases @serve_cases _ _ _ _ _ _ _ _ L allowed c' i with hstay | ⟨hneeds, a, hexec⟩
  · rw [hstay, hsame]
  · rw [exec_frame hexec t fun t' ht' hpart => ?_, hsame]
    obtain ⟨q, hq, hmem⟩ := target_needs ht'
    exact hq (hi t' q hpart (hneeds _ hmem))

omit [DecidableEq τ] in
lemma get_foldl_set {rows : List (K t × V t)} {d : Dict (K t) (V t)} {k : K t}
    (h : k ∉ rows.map Prod.fst) :
    (rows.foldl (fun d e => d.set e.1 e.2) d).get k = d.get k := by
  induction rows generalizing d with
  | nil => rfl
  | cons e rows ih =>
    rw [List.map_cons, List.mem_cons, not_or] at h
    rw [List.foldl_cons, ih h.2, Dict.get_set_ne _ h.1]

/-- An insertion leaves the rows that are there. -/
lemma exec_insert {t' : τ} {rows : Contents K V → List (K t' × V t')} {answer a : ω}
    {seen : Contents K V} (h : L.exec c seen (.insert t' rows answer) = some (a, c')) {k : K t}
    {v : V t} (hrow : (c t).get k = some v) : (c' t).get k = some v := by
  simp only [exec, commit] at h
  split_ifs at h with hnew
  obtain ⟨-, rfl⟩ := Prod.mk.inj (Option.some.inj h)
  by_cases heq : t = t'
  · subst heq
    rw [Function.update_self, get_foldl_set, hrow]
    intro hk
    obtain ⟨e, he, rfl⟩ := List.mem_map.mp hk
    have hfree := List.all_eq_true.mp hnew.2 e he
    rw [hrow] at hfree
    cases hfree
  · rwa [Function.update_of_ne heq]

/-- Where nobody may do more than read and insert, a row stays as it is. -/
theorem kept (h : ∀ r t q, L.part t = g → allowed r t q = true → q = .select ∨ q = .insert)
    (ht : L.part t = g) {k : K t} {v : V t} (hrow : (c t).get k = some v) :
    (Machine.after (L.serve allowed) c is t).get k = some v := by
  refine (Machine.transcript_invariant (I := fun c : Contents K V => (c t).get k = some v)
    (p := fun _ => True) hrow (fun _ _ => trivial) fun c i hrow _ => ?_).2
  rcases @serve_cases _ _ _ _ _ _ _ _ L allowed c i with hsame | ⟨hneeds, a, hexec⟩
  · rwa [hsame]
  · by_cases htarget : ∀ t' ∈ i.2.command.target, L.part t ≠ L.part t'
    · rwa [exec_frame hexec t htarget]
    · obtain ⟨t', ht', hpart⟩ : ∃ t' ∈ i.2.command.target, L.part t = L.part t' := by
        simpa using htarget
      rcases target_beyond ht' with ⟨rows, answer, hcmd, -⟩ | ⟨q, hselect, hinsert, hmem⟩
      · rw [hcmd] at hexec
        exact exec_insert hexec hrow
      · have hq := h i.1 t' q (hpart ▸ ht) (hneeds _ hmem)
        exact (hq.elim hselect hinsert).elim

end growth
end Layout
end exec
end AiAuth.Library.Tables
