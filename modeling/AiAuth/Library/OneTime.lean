import AiAuth.Library.Runs

/-!
# One-time keys

A key is drawn, is live for a while, and is used at most once. What is drawn later is new, so
a used key never comes back.
-/
namespace AiAuth.Library

variable {κ : Type*}

/-- The keys `used` so far, in order, against those that are live and those that were drawn. -/
structure OneTime (used : List κ) (live drawn : κ → Prop) : Prop where
  nodup : used.Nodup
  dead : ∀ k ∈ used, drawn k ∧ ¬ live k
  drawn : ∀ k, live k → drawn k

namespace OneTime

variable {used : List κ} {live live' drawn drawn' : κ → Prop} {k : κ}

theorem empty (h : ∀ k, ¬ live k) : OneTime [] live drawn :=
  ⟨List.nodup_nil, by simp, fun k hk => absurd hk (h k)⟩

/-- Keys may stop being live, and more may be drawn. -/
theorem mono (h : OneTime used live drawn) (hlive : ∀ k, live' k → live k)
    (hdrawn : ∀ k, drawn k → drawn' k) : OneTime used live' drawn' where
  nodup := h.nodup
  dead k hk := ⟨hdrawn k (h.dead k hk).1, fun hl => (h.dead k hk).2 (hlive k hl)⟩
  drawn k hk := hdrawn k (h.drawn k (hlive k hk))

/-- A new key becomes live. -/
theorem put (h : OneTime used live drawn) (hnew : ¬ drawn k) (hk : drawn' k)
    (hlive : ∀ x, live' x → live x ∨ x = k) (hdrawn : ∀ x, drawn x → drawn' x) :
    OneTime used live' drawn' where
  nodup := h.nodup
  dead x hx := by
    refine ⟨hdrawn x (h.dead x hx).1, fun hl => ?_⟩
    rcases hlive x hl with hl | rfl
    · exact (h.dead x hx).2 hl
    · exact hnew (h.dead x hx).1
  drawn x hx := by
    rcases hlive x hx with hl | rfl
    · exact hdrawn x (h.drawn x hl)
    · exact hk

/-- A live key is used. -/
theorem use (h : OneTime used live drawn) (hk : live k) (hlive : ∀ x, live' x → live x ∧ x ≠ k) :
    OneTime (used ++ [k]) live' drawn where
  nodup := by
    refine List.nodup_append.mpr ⟨h.nodup, List.nodup_singleton k, fun x hx y hy => ?_⟩
    rw [List.mem_singleton.mp hy]
    exact fun heq => (h.dead x hx).2 (heq ▸ hk)
  dead x hx := by
    rcases List.mem_append.mp hx with hx | hx
    · exact ⟨(h.dead x hx).1, fun hl => (h.dead x hx).2 (hlive x hl).1⟩
    · rw [List.mem_singleton.mp hx]
      exact ⟨h.drawn k hk, fun hl => (hlive k hl).2 rfl⟩
  drawn x hx := h.drawn x (hlive x hx).1

section trace
variable {α : Type*} {f : α → Option κ} {tr : List α} {e : α}

lemma filterMap_snoc : (tr ++ [e]).filterMap f = tr.filterMap f ++ (f e).toList := by
  rw [List.filterMap_append]
  cases h : f e <;> simp [h]

/-- A label that uses no key. -/
theorem idle (h : OneTime (tr.filterMap f) live drawn) (he : f e = none)
    (hlive : ∀ k, live' k → live k) (hdrawn : ∀ k, drawn k → drawn' k) :
    OneTime ((tr ++ [e]).filterMap f) live' drawn' := by
  rw [filterMap_snoc, he, Option.toList_none, List.append_nil]
  exact h.mono hlive hdrawn

theorem putAt (h : OneTime (tr.filterMap f) live drawn) (he : f e = none) (hnew : ¬ drawn k)
    (hk : drawn' k) (hlive : ∀ x, live' x → live x ∨ x = k) (hdrawn : ∀ x, drawn x → drawn' x) :
    OneTime ((tr ++ [e]).filterMap f) live' drawn' := by
  rw [filterMap_snoc, he, Option.toList_none, List.append_nil]
  exact h.put hnew hk hlive hdrawn

theorem useAt (h : OneTime (tr.filterMap f) live drawn) (he : f e = some k) (hk : live k)
    (hlive : ∀ x, live' x → live x ∧ x ≠ k) (hdrawn : ∀ x, drawn x → drawn' x) :
    OneTime ((tr ++ [e]).filterMap f) live' drawn' := by
  rw [filterMap_snoc, he]
  exact (h.use hk hlive).mono (fun _ hx => hx) hdrawn

end trace
end OneTime
end AiAuth.Library
