import Mathlib.Data.List.Infix

/-!
# Grammars that mark places

A grammar reads tokens from the left, with ordered choice. It answers with the places it marks,
each as the tokens from there on, and with the tokens it leaves.
-/
namespace AiAuth.Library

structure Grammar (τ : Type*) where
  run : List τ → Option (List (List τ) × List τ)
  suffix : ∀ {i marks rest}, run i = some (marks, rest) → rest <:+ i ∧ ∀ d ∈ marks, d <:+ i

namespace Grammar

variable {τ : Type*}

/-- Nothing at all. -/
def empty : Grammar τ where
  run i := some ([], i)
  suffix h := by
    obtain ⟨rfl, rfl⟩ := Prod.mk.inj (Option.some.inj h)
    exact ⟨List.suffix_rfl, by simp⟩

def fail : Grammar τ where
  run _ := none
  suffix h := by cases h

/-- One token that passes a test. -/
def one (p : τ → Bool) : Grammar τ where
  run
    | [] => none
    | t :: i => if p t then some ([], i) else none
  suffix {i marks rest} h := by
    cases i with
    | nil => cases h
    | cons t i =>
      dsimp only at h
      split_ifs at h
      obtain ⟨rfl, rfl⟩ := Prod.mk.inj (Option.some.inj h)
      exact ⟨List.suffix_cons t i, by simp⟩

/-- One grammar after the other. -/
def seq (a b : Grammar τ) : Grammar τ where
  run i := (a.run i).bind fun r => (b.run r.2).map fun r' => (r.1 ++ r'.1, r'.2)
  suffix h := by
    obtain ⟨⟨marks, rest⟩, ha, h⟩ := Option.bind_eq_some_iff.mp h
    obtain ⟨⟨marks', rest'⟩, hb, h⟩ := Option.map_eq_some_iff.mp h
    obtain ⟨rfl, rfl⟩ := Prod.mk.inj h
    obtain ⟨hrest, hmarks⟩ := a.suffix ha
    obtain ⟨hrest', hmarks'⟩ := b.suffix hb
    exact ⟨hrest'.trans hrest, List.forall_mem_append.mpr
      ⟨hmarks, fun d hd => (hmarks' d hd).trans hrest⟩⟩

/-- The second grammar, where the first does not apply. -/
def alt (a b : Grammar τ) : Grammar τ where
  run i := (a.run i).or (b.run i)
  suffix h := (Option.or_eq_some_iff.mp h).elim a.suffix fun hb => b.suffix hb.2

/-- The place where a grammar begins is marked. -/
def mark (a : Grammar τ) : Grammar τ where
  run i := (a.run i).map fun r => (i :: r.1, r.2)
  suffix h := by
    obtain ⟨⟨marks, rest⟩, ha, h⟩ := Option.map_eq_some_iff.mp h
    obtain ⟨rfl, rfl⟩ := Prod.mk.inj h
    obtain ⟨hrest, hmarks⟩ := a.suffix ha
    exact ⟨hrest, List.forall_mem_cons.mpr ⟨List.suffix_rfl, hmarks⟩⟩

def loop (a : Grammar τ) : ℕ → List τ → List (List τ) × List τ
  | 0, i => ([], i)
  | fuel + 1, i =>
    match a.run i with
    | none => ([], i)
    | some (marks, rest) => (marks ++ (a.loop fuel rest).1, (a.loop fuel rest).2)

lemma loop_suffix (a : Grammar τ) (fuel : ℕ) (i : List τ) :
    (a.loop fuel i).2 <:+ i ∧ ∀ d ∈ (a.loop fuel i).1, d <:+ i := by
  induction fuel generalizing i with
  | zero => simp [loop]
  | succ fuel ih =>
    rw [loop]
    cases hrun : a.run i with
    | none => simp
    | some r =>
      obtain ⟨hrest, hmarks⟩ := a.suffix hrun
      obtain ⟨hrest', hmarks'⟩ := ih r.2
      exact ⟨hrest'.trans hrest, List.forall_mem_append.mpr
        ⟨hmarks, fun d hd => (hmarks' d hd).trans hrest⟩⟩

/-- A grammar as often as it applies. -/
def many (a : Grammar τ) : Grammar τ where
  run i := some (a.loop i.length i)
  suffix {i marks rest} h := by
    have hloop := a.loop_suffix i.length i
    rw [Option.some.inj h] at hloop
    exact hloop

def opt (a : Grammar τ) : Grammar τ := a.alt empty

/-- One or more, with a separator between them. -/
def sepBy (a sep : Grammar τ) : Grammar τ := a.seq (sep.seq a).many

def seqs (gs : List (Grammar τ)) : Grammar τ := gs.foldr seq empty

def oneOf (gs : List (Grammar τ)) : Grammar τ := gs.foldr alt fail

end Grammar
end AiAuth.Library
