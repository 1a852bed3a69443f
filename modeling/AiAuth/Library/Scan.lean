import Mathlib.Data.List.Basic

/-!
# All matches in a text

Matches are looked for from left to right and do not overlap. A matcher answers with what it
finds at the beginning of a text, and with the length of the match.
-/
namespace AiAuth.Library

structure Matcher (α β : Type*) where
  run : List α → Option (β × ℕ)
  len : ∀ {s b n}, run s = some (b, n) → 0 < n ∧ n ≤ s.length

namespace Matcher

variable {α β : Type*} {m : Matcher α β} {s : List α} {b : β} {n skip : ℕ}

/-- The matches from a place on; the first `skip` places belong to the match before. -/
def scan (m : Matcher α β) : ℕ → List α → List β
  | _, [] => []
  | skip + 1, _ :: s => m.scan skip s
  | 0, c :: s =>
    match m.run (c :: s) with
    | some (b, n) => b :: m.scan (n - 1) s
    | none => m.scan 0 s

def findall (m : Matcher α β) (s : List α) : List β := m.scan 0 s

/-- A match was looked for after `before`: there was none one place earlier, or one ended there. -/
inductive Reached (m : Matcher α β) (skip : ℕ) (before after : List α) : Prop
  | first : before.length = skip → Reached m skip before after
  | next {front c} : before = front ++ [c] → m.run (c :: after) = none → Reached m skip before after
  | past {front found b} : before = front ++ found → found ≠ [] →
    m.run (found ++ after) = some (b, found.length) → Reached m skip before after

lemma Reached.cons {before after : List α} (h : Reached m skip before after) (c : α) :
    Reached m (skip + 1) (c :: before) after := by
  cases h with
  | first hlen => exact .first (by simp [hlen])
  | next heq hnone => exact .next (by rw [heq, List.cons_append]) hnone
  | past heq hne hfound => exact .past (by rw [heq, List.cons_append]) hne hfound

/-- Reaching a place does not depend on where the scan began, if it began earlier. -/
lemma Reached.mono {before after : List α} {skip' : ℕ} (h : Reached m skip before after)
    (hlen : before.length ≠ skip) : Reached m skip' before after := by
  cases h with
  | first heq => exact absurd heq hlen
  | next heq hnone => exact .next heq hnone
  | past heq hne hfound => exact .past heq hne hfound

/-- What is found was looked for at its place. -/
theorem mem_scan (h : b ∈ m.scan skip s) : ∃ before after n, s = before ++ after ∧
    m.run after = some (b, n) ∧ Reached m skip before after := by
  induction s generalizing skip with
  | nil => cases skip <;> cases h
  | cons c s ih =>
    cases skip with
    | succ skip =>
      obtain ⟨before, after, n, rfl, hrun, hreached⟩ := ih h
      exact ⟨c :: before, after, n, rfl, hrun, hreached.cons c⟩
    | zero =>
      rw [scan] at h
      cases hfound : m.run (c :: s) with
      | none =>
        rw [hfound] at h
        obtain ⟨before, after, n, rfl, hrun, hreached⟩ := ih h
        refine ⟨c :: before, after, n, rfl, hrun, ?_⟩
        by_cases hlen : before.length = 0
        · obtain rfl := List.length_eq_zero_iff.mp hlen
          exact .next (List.nil_append [c]).symm hfound
        · exact (hreached.cons c).mono (by simpa using hlen)
      | some found =>
        obtain ⟨b', n'⟩ := found
        obtain ⟨hpos, -⟩ := m.len hfound
        rw [hfound] at h
        rcases List.mem_cons.mp h with rfl | h
        · exact ⟨[], c :: s, n', rfl, hfound, .first rfl⟩
        · obtain ⟨before, after, n, rfl, hrun, hreached⟩ := ih h
          refine ⟨c :: before, after, n, rfl, hrun, ?_⟩
          by_cases hlen : before.length = n' - 1
          · have hlength : (c :: before).length = n' := by
              rw [List.length_cons, hlen]
              omega
            exact .past (List.nil_append _).symm (by simp) (hlength ▸ hfound)
          · exact (hreached.cons c).mono (by simpa using hlen)

/-- A match is found if no match from before it reaches into it. -/
theorem scan_complete {before after : List α} (hrun : m.run after = some (b, n))
    (hskip : skip ≤ before.length)
    (hfree : ∀ front back b' n', before = front ++ back → back ≠ [] →
      m.run (back ++ after) = some (b', n') → n' ≤ back.length) :
    b ∈ m.scan skip (before ++ after) := by
  induction before generalizing skip with
  | nil =>
    obtain rfl := Nat.le_zero.mp hskip
    cases after with
    | nil =>
      obtain ⟨hpos, hle⟩ := m.len hrun
      rw [List.length_nil] at hle
      omega
    | cons c after =>
      rw [List.nil_append, scan, hrun]
      exact List.mem_cons_self
  | cons c before ih =>
    have hfree' : ∀ front back b' n', before = front ++ back → back ≠ [] →
        m.run (back ++ after) = some (b', n') → n' ≤ back.length :=
      fun front back b' n' heq => hfree (c :: front) back b' n' (by rw [heq, List.cons_append])
    cases skip with
    | succ skip => exact ih (Nat.le_of_succ_le_succ hskip) hfree'
    | zero =>
      rw [List.cons_append, scan]
      cases hfound : m.run (c :: (before ++ after)) with
      | none => exact ih (Nat.zero_le _) hfree'
      | some found =>
        obtain ⟨b', n'⟩ := found
        have hle := hfree [] (c :: before) b' n' rfl (by simp) hfound
        rw [List.length_cons] at hle
        exact List.mem_cons_of_mem _ (ih (by omega) hfree')

end Matcher
end AiAuth.Library
