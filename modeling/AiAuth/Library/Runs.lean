import Mathlib.Data.List.Nodup
import Mathlib.Order.Basic

/-!
# Runs of a labelled step relation

A run is recorded with its trace, oldest label first. Invariants may speak about
the trace as well as the state, so that history need not be stored in the state.
A condition met by every step of a run is a restriction of the step relation.
-/
namespace AiAuth.Library

variable {σ α κ : Type*}

/-- `Run step s₀ tr s`: the labels `tr`, taken in order from `s₀`, lead to `s`. -/
inductive Run (step : σ → α → σ → Prop) (s₀ : σ) : List α → σ → Prop
  | nil : Run step s₀ [] s₀
  | snoc {tr s a s'} : Run step s₀ tr s → step s a s' → Run step s₀ (tr ++ [a]) s'

/-- The steps that are taken in a state and under a label which satisfy `P`. -/
def Guarded (P : σ → α → Prop) (step : σ → α → σ → Prop) : σ → α → σ → Prop :=
  fun s a s' => P s a ∧ step s a s'

/-- The relation of a step function; the label carries every free choice. -/
def StepOf (f : σ → α → Option σ) : σ → α → σ → Prop := fun s a s' => f s a = some s'

namespace Run

variable {step step' : σ → α → σ → Prop} {s₀ s s' : σ} {tr tr' : List α} {a : α}

theorem single (h : step s a s') : Run step s [a] s' := snoc nil h

/-- What holds at the start and is preserved by every step holds after every run.
The invariant sees the trace that led to its state. -/
theorem invariant (I : List α → σ → Prop) (h₀ : I [] s₀)
    (hs : ∀ tr s a s', Run step s₀ tr s → I tr s → step s a s' → I (tr ++ [a]) s')
    (h : Run step s₀ tr s) : I tr s := by
  induction h with
  | nil => exact h₀
  | snoc hr ha ih => exact hs _ _ _ _ hr ih ha

theorem mono (hm : ∀ s a s', step s a s' → step' s a s') (h : Run step s₀ tr s) :
    Run step' s₀ tr s := by
  induction h with
  | nil => exact nil
  | snoc _ ha ih => exact snoc ih (hm _ _ _ ha)

theorem append (h : Run step s₀ tr s) (h' : Run step s tr' s') :
    Run step s₀ (tr ++ tr') s' := by
  induction h' with
  | nil => simpa using h
  | snoc _ ha ih => simpa using snoc ih ha

/-- A run can be cut at any point of its trace. -/
theorem cut (h : Run step s₀ tr s') (pre post : List α) (htr : tr = pre ++ post) :
    ∃ s, Run step s₀ pre s ∧ Run step s post s' := by
  induction h generalizing post with
  | nil =>
    obtain ⟨rfl, rfl⟩ := List.append_eq_nil_iff.mp htr.symm
    exact ⟨s₀, nil, nil⟩
  | @snoc tr s a s' hr ha ih =>
    rcases List.eq_nil_or_concat post with rfl | ⟨post, b, rfl⟩
    · rw [List.append_nil] at htr
      exact ⟨s', htr ▸ snoc hr ha, nil⟩
    · rw [List.concat_eq_append, ← List.append_assoc] at htr
      obtain ⟨htr, hab⟩ := List.append_inj' htr rfl
      obtain ⟨t, hpre, hpost⟩ := ih post htr
      rw [List.singleton_inj] at hab
      subst hab
      exact ⟨t, hpre, by simpa using snoc hpost ha⟩

/-- The states just before and just after one label of the trace. -/
theorem at_label (h : Run step s₀ tr s') (pre post : List α) (htr : tr = pre ++ a :: post) :
    ∃ s t, Run step s₀ pre s ∧ step s a t ∧ Run step t post s' := by
  obtain ⟨t, ht, hpost⟩ := h.cut (pre ++ [a]) post (by simpa using htr)
  generalize hp : pre ++ [a] = p at ht
  cases ht with
  | nil => simp at hp
  | snoc hr ha =>
    obtain ⟨rfl, hab⟩ := List.append_inj' hp rfl
    rw [List.singleton_inj] at hab
    subst hab
    exact ⟨_, t, hr, ha, hpost⟩

theorem of_guarded {P : σ → α → Prop} (h : Run (Guarded P step) s₀ tr s) : Run step s₀ tr s :=
  h.mono fun _ _ _ hs => hs.2

/-- A run takes guarded steps if the guard holds at each of its labels. -/
theorem guarded_of_labels {P : σ → α → Prop} (h : Run step s₀ tr s)
    (hP : ∀ pre a post t t', tr = pre ++ a :: post → Run step s₀ pre t → step t a t' → P t a) :
    Run (Guarded P step) s₀ tr s := by
  induction h with
  | nil => exact nil
  | @snoc tr s b s' hr hb ih =>
    refine snoc (ih fun pre a post t t' htr hpre hs => ?_) ⟨hP tr b [] s s' rfl hr hb, hb⟩
    exact hP pre a (post ++ [b]) t t' (by simp [htr]) hpre hs

/-- A system is refined by one that takes a run for each of its steps. `R` relates their states,
and `out` and `out'` are what is seen of a label. -/
theorem refines {τ β ω : Type*} {other : τ → β → τ → Prop} {t₀ : τ} (R : σ → τ → Prop)
    (out : α → Option ω) (out' : β → Option ω) (h₀ : R s₀ t₀)
    (hs : ∀ s a s' t, R s t → step s a s' → ∃ tr' t', Run other t tr' t' ∧ R s' t' ∧
      tr'.filterMap out' = (out a).toList)
    (h : Run step s₀ tr s) :
    ∃ tr' t, Run other t₀ tr' t ∧ R s t ∧ tr'.filterMap out' = tr.filterMap out := by
  induction h with
  | nil => exact ⟨[], t₀, nil, h₀, rfl⟩
  | @snoc tr s a s' _ ha ih =>
    obtain ⟨tr', t, hr, hR, hout⟩ := ih
    obtain ⟨tr'', t', hr', hR', hout'⟩ := hs s a s' t hR ha
    refine ⟨tr' ++ tr'', t', hr.append hr', hR', ?_⟩
    rw [List.filterMap_append, List.filterMap_append, hout, hout']
    cases ha : out a <;> simp [ha]

/-- Executing a step function is a run of its relation. -/
theorem of_foldlM {f : σ → α → Option σ} (h : tr.foldlM f s = some s') :
    Run (StepOf f) s tr s' := by
  induction tr generalizing s with
  | nil =>
    obtain rfl : s = s' := by simpa using h
    exact nil
  | cons a tr ih =>
    rw [List.foldlM_cons, Option.bind_eq_bind, Option.bind_eq_some_iff] at h
    obtain ⟨t, ha, hr⟩ := h
    exact (single ha).append (ih hr)

theorem exists_of_foldlM (f : σ → α → Option σ) (s : σ) (tr : List α)
    (h : (tr.foldlM f s).isSome = true) : ∃ s', Run (StepOf f) s tr s' := by
  obtain ⟨s', hs'⟩ := Option.isSome_iff_exists.mp h
  exact ⟨s', of_foldlM hs'⟩

/-- A run that ends in a state which passes a test. -/
theorem exists_of_foldlM_any (f : σ → α → Option σ) (q : σ → Bool) (s : σ) (tr : List α)
    (h : (tr.foldlM f s).any q = true) : ∃ s', Run (StepOf f) s tr s' ∧ q s' = true := by
  obtain ⟨s', hs', hq⟩ := (Option.any_eq_true q _).mp h
  exact ⟨s', of_foldlM hs', hq⟩

/-- A step function that stops where a test fails takes guarded steps. -/
theorem guarded {P : σ → α → Prop} [∀ s a, Decidable (P s a)] {f : σ → α → Option σ}
    (h : Run (StepOf fun s a => if P s a then f s a else none) s tr s') :
    Run (Guarded P (StepOf f)) s tr s' := by
  refine h.mono fun t a t' ht => ?_
  change (if P t a then f t a else none) = some t' at ht
  split_ifs at ht with hP
  exact ⟨hP, ht⟩

/-- A run all of whose steps pass a test. -/
theorem exists_of_foldlM_guarded (P : σ → α → Prop) [∀ s a, Decidable (P s a)]
    (f : σ → α → Option σ) (s : σ) (tr : List α)
    (h : (tr.foldlM (fun s a => if P s a then f s a else none) s).isSome = true) :
    ∃ s', Run (Guarded P (StepOf f)) s tr s' := by
  obtain ⟨s', hr⟩ := exists_of_foldlM _ s tr h
  exact ⟨s', hr.guarded⟩

end Run

/-- The last label of `tr` that satisfies `q` exists and satisfies `p`. -/
def LastIs (q p : α → Prop) (tr : List α) : Prop :=
  ∃ pre a post, tr = pre ++ a :: post ∧ p a ∧ ∀ b ∈ post, ¬ q b

namespace LastIs

variable {q p : α → Prop} {tr : List α} {a b : α}

theorem here (hp : p b) : LastIs q p (tr ++ [b]) := ⟨tr, b, [], rfl, hp, by simp⟩

theorem snoc (h : LastIs q p tr) (hb : ¬ q b) : LastIs q p (tr ++ [b]) := by
  obtain ⟨pre, a, post, rfl, hp, hpost⟩ := h
  refine ⟨pre, a, post ++ [b], by simp, hp, fun c hc => ?_⟩
  rcases List.mem_append.mp hc with hc | hc
  · exact hpost c hc
  · rwa [List.mem_singleton.mp hc]

/-- The last label is the one, or it is not and the one came before. -/
theorem snoc_iff : LastIs q p (tr ++ [b]) ↔ p b ∨ LastIs q p tr ∧ ¬ q b := by
  refine ⟨fun ⟨pre, a, post, htr, hp, hpost⟩ => ?_, fun h => h.elim here fun h => h.1.snoc h.2⟩
  rcases List.eq_nil_or_concat post with rfl | ⟨post, c, rfl⟩
  · obtain ⟨-, hb⟩ := List.append_inj' htr rfl
    exact .inl (List.singleton_inj.mp hb ▸ hp)
  · rw [List.concat_eq_append, ← List.cons_append, ← List.append_assoc] at htr
    obtain ⟨rfl, hb⟩ := List.append_inj' htr rfl
    obtain rfl := List.singleton_inj.mp hb
    exact .inr ⟨⟨pre, a, post, rfl, hp, fun x hx => hpost x (by simp [hx])⟩, hpost b (by simp)⟩

theorem mem (h : LastIs q p tr) : ∃ a ∈ tr, p a := by
  obtain ⟨pre, a, post, rfl, hp, -⟩ := h
  exact ⟨a, by simp, hp⟩

end LastIs

theorem countP_snoc (p : α → Bool) (tr : List α) (a : α) :
    (tr ++ [a]).countP p = tr.countP p + (p a).toNat := by
  rw [List.countP_append, List.countP_singleton]
  cases p a <;> rfl

/-- Adding a label with a new key keeps the keys of the trace distinct. -/
theorem nodup_filterMap_snoc {f : α → Option κ} {tr : List α} {a : α}
    (h : (tr.filterMap f).Nodup) (ha : ∀ k, f a = some k → k ∉ tr.filterMap f) :
    ((tr ++ [a]).filterMap f).Nodup := by
  rw [List.filterMap_append, List.nodup_append]
  refine ⟨h, ?_, ?_⟩
  · cases hf : f a <;> simp [hf]
  · intro k hk k' hk'
    simp only [List.filterMap_cons, List.filterMap_nil] at hk'
    cases hf : f a with
    | none => simp [hf] at hk'
    | some x =>
      obtain rfl : k' = x := by simpa [hf] using hk'
      exact fun hkk => ha k' hf (hkk ▸ hk)

/-- Where keys are distinct, two labels with one key are one label. -/
theorem eq_of_nodup_filterMap {f : α → Option κ} {tr : List α} (h : (tr.filterMap f).Nodup)
    {a b : α} (ha : a ∈ tr) (hb : b ∈ tr) {k : κ} (hfa : f a = some k) (hfb : f b = some k) :
    a = b := by
  induction tr with
  | nil => simp at ha
  | cons c tr ih =>
    rw [List.filterMap_cons] at h
    have hmem : ∀ x ∈ tr, f x = some k → k ∈ tr.filterMap f := fun x hx hfx =>
      List.mem_filterMap.mpr ⟨x, hx, hfx⟩
    rcases List.mem_cons.mp ha with rfl | ha' <;> rcases List.mem_cons.mp hb with rfl | hb'
    · rfl
    · simp only [hfa, List.nodup_cons] at h
      exact absurd (hmem b hb' hfb) h.1
    · simp only [hfb, List.nodup_cons] at h
      exact absurd (hmem a ha' hfa) h.1
    · refine ih ?_ ha' hb'
      cases hc : f c <;> simp_all

end AiAuth.Library
