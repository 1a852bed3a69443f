import Mathlib.Data.List.Basic

/-!
# Machines that answer

A machine takes one input after the other and answers each of them. An input that an observer
cannot tell from its absence can be taken out of a run, and the answers to the others stay.
-/
namespace AiAuth.Library.Machine

variable {σ σ' ι ω : Type*}

/-- The inputs of a run, each with its answer. -/
def transcript (f : σ → ι → ω × σ) : σ → List ι → List (ι × ω)
  | _, [] => []
  | s, i :: is => (i, (f s i).1) :: transcript f (f s i).2 is

/-- The state after a run. -/
def after (f : σ → ι → ω × σ) (s : σ) (is : List ι) : σ := is.foldl (fun s i => (f s i).2) s

section run
variable {f : σ → ι → ω × σ} {s : σ} {i : ι} {is : List ι}

@[simp] theorem after_nil : after f s [] = s := rfl

@[simp] theorem after_cons : after f s (i :: is) = after f (f s i).2 is := rfl

/-- What every input keeps holds of the state that each input of a run finds, and at the end. -/
theorem transcript_invariant {I : σ → Prop} {p : ι → Prop} (h : I s) (his : ∀ i ∈ is, p i)
    (step : ∀ s i, I s → p i → I (f s i).2) :
    (∀ x ∈ transcript f s is, ∃ s', I s' ∧ p x.1 ∧ x.2 = (f s' x.1).1) ∧ I (after f s is) := by
  induction is generalizing s with
  | nil => exact ⟨fun x hx => absurd hx List.not_mem_nil, h⟩
  | cons i is ih =>
    have hi : p i := his i List.mem_cons_self
    obtain ⟨hseen, hend⟩ := ih (step s i h hi) fun j hj => his j (List.mem_cons_of_mem i hj)
    refine ⟨fun x hx => ?_, hend⟩
    rcases List.mem_cons.mp hx with rfl | hx
    · exact ⟨s, h, hi, rfl⟩
    · exact hseen x hx

end run

section log
variable {f : σ → ι → ω × σ} {α : Type*} {log : σ → List α} {line : ι × ω → α} {s : σ}
  {is : List ι}

/-- A machine that writes a line for each input writes the lines of its transcript. -/
theorem log_after (h : ∀ s i, log (f s i).2 = log s ++ [line (i, (f s i).1)]) :
    log (after f s is) = log s ++ (transcript f s is).map line := by
  induction is generalizing s with
  | nil => exact (List.append_nil _).symm
  | cons i is ih => rw [after_cons, ih, h, List.append_assoc]; rfl

end log

section unwinding
variable {f : σ → ι → ω × σ} {f' : σ' → ι → ω × σ'} {R : List ι → σ → σ' → Prop} {p : ι → Bool}
  {s : σ} {s' : σ'} {is : List ι}

/-- Inputs that an observer does not see can be taken out of a run. `R` says that two states are
alike for the observer, ahead of the inputs that are still to come: a hidden input keeps it on
one side, and the others keep it on both and are answered alike. -/
theorem transcript_filter (hR : R is s s')
    (hidden : ∀ i is s s', R (i :: is) s s' → p i = false → R is (f s i).2 s')
    (seen : ∀ i is s s', R (i :: is) s s' → p i = true →
      (f s i).1 = (f' s' i).1 ∧ R is (f s i).2 (f' s' i).2) :
    (transcript f s is).filter (fun x => p x.1) = transcript f' s' (is.filter p) ∧
      R [] (after f s is) (after f' s' (is.filter p)) := by
  induction is generalizing s s' with
  | nil => exact ⟨rfl, hR⟩
  | cons i is ih =>
    cases hp : p i with
    | false => simpa [transcript, hp] using ih (hidden i is s s' hR hp)
    | true =>
      obtain ⟨hanswer, hnext⟩ := seen i is s s' hR hp
      obtain ⟨htranscript, hafter⟩ := ih hnext
      simp [transcript, hp, hanswer, htranscript, hafter]

end unwinding

section count
variable {f : σ → ι → ω × σ} {I : List ι → ℕ → σ → Prop} {p : ι × ω → Bool} {s : σ} {is : List ι}
  {n : ℕ}

/-- Answers of one kind are counted by what each of them leaves behind in the state. -/
theorem countP_transcript (h : I is n s)
    (step : ∀ i is n s, I (i :: is) n s →
      ∃ n', n + (p (i, (f s i).1)).toNat ≤ n' ∧ I is n' (f s i).2) :
    ∃ n', n + (transcript f s is).countP p ≤ n' ∧ I [] n' (after f s is) := by
  induction is generalizing s n with
  | nil => exact ⟨n, Nat.le_refl n, h⟩
  | cons i is ih =>
    obtain ⟨n₁, hle₁, h₁⟩ := step i is n s h
    obtain ⟨n₂, hle₂, h₂⟩ := ih h₁
    refine ⟨n₂, ?_, h₂⟩
    cases hp : p (i, (f s i).1) <;> simp [transcript, hp] at hle₁ ⊢ <;> omega

end count

section map
variable {f : σ → ι → ω × σ} {φ : ι → ι} {s : σ} {is : List ι}

/-- Inputs that the machine does not tell apart lead to the same answers and the same state. -/
theorem transcript_map (h : ∀ s i, f s (φ i) = f s i) :
    (transcript f s (is.map φ)).map Prod.snd = (transcript f s is).map Prod.snd ∧
      after f s (is.map φ) = after f s is := by
  induction is generalizing s with
  | nil => exact ⟨rfl, rfl⟩
  | cons i is ih =>
    obtain ⟨hanswers, hafter⟩ := ih (s := (f s i).2)
    simp [transcript, h, hanswers, hafter]

end map
end AiAuth.Library.Machine
