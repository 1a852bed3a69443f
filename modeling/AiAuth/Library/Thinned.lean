import AiAuth.Library.Dict

/-!
# Dictionaries that have lost dead entries

A store that sweeps is compared with one that never does. What it still has is the same up to
a view of the values, and what it lost is dead, so an answer that no dead entry can give is
the same from both.
-/
namespace AiAuth.Library

variable {κ μ ν : Type*} [DecidableEq κ]

/-- The entries of `d`, seen through `view`, are entries of `full`, and those missing are
dead. -/
structure Thinned (view : μ → ν) (dead : ν → Prop) (d : Dict κ μ) (full : Dict κ ν) : Prop where
  sound : ∀ k v, d.get k = some v → full.get k = some (view v)
  kept : ∀ k w, full.get k = some w → (∃ v, d.get k = some v ∧ view v = w) ∨ dead w

namespace Thinned

variable {view : μ → ν} {dead dead' : ν → Prop} {d : Dict κ μ} {full : Dict κ ν}

theorem empty : Thinned view dead (Dict.empty : Dict κ μ) (Dict.empty : Dict κ ν) :=
  ⟨fun _ _ h => by simp at h, fun _ _ h => by simp at h⟩

theorem refl {dead : ν → Prop} (d : Dict κ ν) : Thinned id dead d d :=
  ⟨fun _ _ h => h, fun _ w h => .inl ⟨w, h, rfl⟩⟩

theorem mono (h : Thinned view dead d full) (hdead : ∀ w, dead w → dead' w) :
    Thinned view dead' d full :=
  ⟨h.sound, fun k w hw => (h.kept k w hw).imp_right (hdead w)⟩

theorem set (h : Thinned view dead d full) (k : κ) {v : μ} {w : ν} (hv : view v = w) :
    Thinned view dead (d.set k v) (full.set k w) where
  sound x y hy := by
    rw [Dict.get_set] at hy ⊢
    split_ifs at hy ⊢ with hx
    · rw [← Option.some.inj hy, hv]
    · exact h.sound x y hy
  kept x y hy := by
    rw [Dict.get_set] at hy ⊢
    split_ifs at hy ⊢ with hx
    · exact .inl ⟨v, rfl, hv.trans (Option.some.inj hy)⟩
    · exact h.kept x y hy

/-- The key is gone on both sides. -/
theorem remove (h : Thinned view dead d full) {d' : Dict κ μ} {k : κ}
    (hd : ∀ x, d'.get x = if x = k then none else d.get x) :
    Thinned view dead d' (full.remove k) where
  sound x y hy := by
    rw [hd] at hy
    rw [Dict.get_remove]
    split_ifs at hy ⊢
    exact h.sound x y hy
  kept x y hy := by
    rw [Dict.get_remove] at hy
    rw [hd]
    split_ifs at hy ⊢
    exact h.kept x y hy

/-- The key is gone on both sides, if it was there. -/
theorem remove_both (h : Thinned view dead d full) {d' : Dict κ μ} {full' : Dict κ ν} {k : κ}
    (hd : ∀ x, d'.get x = if x = k then none else d.get x)
    (hfull : ∀ x, full'.get x = if x = k then none else full.get x) :
    Thinned view dead d' full' where
  sound x y hy := by
    rw [hd] at hy
    rw [hfull]
    split_ifs at hy ⊢
    exact h.sound x y hy
  kept x y hy := by
    rw [hfull] at hy
    rw [hd]
    split_ifs at hy ⊢
    exact h.kept x y hy

/-- A sweep that drops only dead entries. -/
theorem retain (h : Thinned view dead d full) {p : κ → μ → Bool}
    (hp : ∀ k v, p k v = false → dead (view v)) : Thinned view dead (d.retain p) full where
  sound x y hy := h.sound x y (Dict.get_of_retain hy)
  kept x y hy := by
    rcases h.kept x y hy with ⟨v, hv, rfl⟩ | hd
    · cases hpv : p x v with
      | true => exact .inl ⟨v, Dict.get_retain.mpr ⟨hv, hpv⟩, rfl⟩
      | false => exact .inr (hp x v hpv)
    · exact .inr hd

/-- A sweep of both by one rule. -/
theorem retain_both (h : Thinned view dead d full) {p : κ → μ → Bool} {q : κ → ν → Bool}
    (hpq : ∀ k v, p k v = q k (view v)) : Thinned view dead (d.retain p) (full.retain q) where
  sound x y hy := by
    obtain ⟨hget, hp⟩ := Dict.get_retain.mp hy
    exact Dict.get_retain.mpr ⟨h.sound x y hget, hpq x y ▸ hp⟩
  kept x y hy := by
    obtain ⟨hget, hq⟩ := Dict.get_retain.mp hy
    rcases h.kept x y hget with ⟨v, hv, rfl⟩ | hd
    · exact .inl ⟨v, Dict.get_retain.mpr ⟨hv, (hpq x v).trans hq⟩, rfl⟩
    · exact .inr hd

/-- A question whose answer a dead entry cannot change is answered alike. -/
theorem answer {β : Type*} (h : Thinned view dead d full) (k : κ) (ask : Option ν → β)
    (hdead : ∀ w, dead w → ask (some w) = ask none) :
    ask ((d.get k).map view) = ask (full.get k) := by
  cases hd : d.get k with
  | some v => rw [h.sound k v hd, Option.map_some]
  | none =>
    cases hf : full.get k with
    | none => rfl
    | some w =>
      rcases h.kept k w hf with ⟨v, hv, -⟩ | hw
      · rw [hd] at hv
        cases hv
      · exact (hdead w hw).symm

end Thinned
end AiAuth.Library
