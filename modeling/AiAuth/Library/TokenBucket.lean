import Mathlib.Algebra.Order.Field.Basic
import Mathlib.Algebra.Order.BigOperators.Group.List
import Mathlib.Tactic.Linarith
import Mathlib.Tactic.Ring

/-!
# Token buckets

A bucket refills at a constant rate up to its capacity, and a take removes one token if
there is one. Readings of the clock that come in order make what is taken in a window at
most the capacity and the refill of the window.
-/
namespace AiAuth.Library.TokenBucket

variable {K : Type*} [Field K] [LinearOrder K]

/-- The tokens at the time of the last take. -/
structure Bucket (K : Type*) where
  tokens : K
  last : K
  deriving DecidableEq

/-- What a bucket holds at a later time. A clock that runs backwards refills nothing. -/
def level (cap rate : K) (b : Bucket K) (now : K) : K :=
  min (b.tokens + max 0 (now - b.last) * rate) cap

/-- Refill, and take one token if there is one. -/
def take (cap rate : K) (b : Bucket K) (now : K) : Bool × Bucket K :=
  if 1 ≤ level cap rate b now then (true, ⟨level cap rate b now - 1, now⟩)
  else (false, ⟨level cap rate b now, now⟩)

/-- The number of tokens a take removes. -/
def cost (ok : Bool) : K := if ok then 1 else 0

section equations
variable {cap rate now : K} {b : Bucket K}

lemma level_le_cap : level cap rate b now ≤ cap := min_le_right _ _

@[simp] lemma take_last : (take cap rate b now).2.last = now := by
  unfold take
  split_ifs <;> rfl

lemma take_fst : (take cap rate b now).1 = decide (1 ≤ level cap rate b now) := by
  unfold take
  split_ifs with h <;> simp [h]

/-- A take leaves the level less what it removed. -/
lemma take_tokens :
    (take cap rate b now).2.tokens = level cap rate b now - cost (take cap rate b now).1 := by
  unfold take
  split_ifs <;> simp [cost]

/-- What a take does depends only on the level it finds. -/
lemma take_congr {b' : Bucket K} (h : level cap rate b now = level cap rate b' now) :
    take cap rate b now = take cap rate b' now := by
  unfold take
  rw [h]

end equations

section order
variable [IsStrictOrderedRing K] {cap rate now later T d : K} {b : Bucket K} {k : K}

lemma level_nonneg (hcap : 0 ≤ cap) (hrate : 0 ≤ rate) (hb : 0 ≤ b.tokens) :
    0 ≤ level cap rate b now := by
  have hrefill : 0 ≤ max 0 (now - b.last) * rate := mul_nonneg (le_max_left _ _) hrate
  exact le_min (by linarith) hcap

lemma level_le_refill (h : b.last ≤ now) :
    level cap rate b now ≤ b.tokens + (now - b.last) * rate := by
  have hsub : max 0 (now - b.last) = now - b.last := max_eq_right (by linarith)
  rw [← hsub]
  exact min_le_left _ _

/-- The level can be read at an intermediate time first. -/
lemma level_later (hrate : 0 ≤ rate) (h : b.last ≤ now) (h' : now ≤ later) :
    level cap rate b later = min (level cap rate b now + (later - now) * rate) cap := by
  have hnow : max 0 (now - b.last) = now - b.last := max_eq_right (by linarith)
  have hlater : max 0 (later - b.last) = later - b.last := max_eq_right (by linarith)
  have hgrow : 0 ≤ (later - now) * rate := mul_nonneg (by linarith) hrate
  have hsum : b.tokens + (later - b.last) * rate =
      b.tokens + (now - b.last) * rate + (later - now) * rate := by ring
  simp only [level, hnow, hlater, hsum]
  rcases le_total (b.tokens + (now - b.last) * rate) cap with hle | hle
  · rw [min_eq_left hle]
  · rw [min_eq_right hle, min_eq_right (by linarith), min_eq_right (by linarith)]

lemma cost_nonneg (ok : Bool) : 0 ≤ (cost ok : K) := by
  cases ok <;> simp [cost]

lemma take_tokens_le : (take cap rate b now).2.tokens ≤ cap := by
  have hcap : level cap rate b now ≤ cap := level_le_cap
  rw [take_tokens]
  linarith [cost_nonneg (K := K) (take cap rate b now).1]

lemma take_tokens_nonneg (hcap : 0 ≤ cap) (hrate : 0 ≤ rate) (hb : 0 ≤ b.tokens) :
    0 ≤ (take cap rate b now).2.tokens := by
  have hlevel : 0 ≤ level cap rate b now := level_nonneg hcap hrate hb
  unfold take
  split_ifs with h
  · simpa using h
  · exact hlevel

lemma level_take : level cap rate (take cap rate b now).2 now =
    level cap rate b now - cost (take cap rate b now).1 := by
  rw [← take_tokens, level, take_last, sub_self, max_self, zero_mul, add_zero,
    min_eq_left take_tokens_le]

/-- A take leaves room in a bucket that can hold a token. -/
lemma take_tokens_lt (hcap : 1 ≤ cap) : (take cap rate b now).2.tokens < cap := by
  have hlevel : level cap rate b now ≤ cap := level_le_cap
  unfold take
  split_ifs with h
  · change level cap rate b now - 1 < cap
    linarith
  · exact (not_le.mp h).trans_le hcap

/-- A bucket that has filled up since its last take stays full. -/
lemma level_of_full (h : cap ≤ b.tokens + max 0 (now - b.last) * rate) (hb : b.tokens < cap)
    (hle : now ≤ later) : level cap rate b later = cap := by
  have hgrow : 0 < max 0 (now - b.last) * rate := by linarith
  have hrate : 0 ≤ rate := by
    by_contra hneg
    have hshrink :=
      mul_nonpos_of_nonneg_of_nonpos (le_max_left 0 (now - b.last)) (not_le.mp hneg).le
    linarith
  have hmono : max 0 (now - b.last) * rate ≤ max 0 (later - b.last) * rate :=
    mul_le_mul_of_nonneg_right (max_le_max_left 0 (by linarith)) hrate
  exact min_eq_right (by linarith)

/-- After `k` tokens were taken in a window that opened at `T`: either none was, or the bucket
was last touched in the window and accounts for them. -/
def Within (cap rate T : K) (b : Bucket K) (k : K) : Prop :=
  (k = 0 ∧ b.tokens ≤ cap) ∨ (T ≤ b.last ∧ k + b.tokens ≤ cap + (b.last - T) * rate)

/-- A take whose reading comes neither before the window nor before the last one. -/
lemma Within.take (h : Within cap rate T b k) (hrate : 0 ≤ rate) (hT : T ≤ now)
    (hlast : b.last ≤ now) :
    Within cap rate T (TokenBucket.take cap rate b now).2
      (k + cost (TokenBucket.take cap rate b now).1) := by
  refine .inr ⟨by rwa [take_last], ?_⟩
  rw [take_tokens, take_last]
  rcases h with ⟨rfl, -⟩ | ⟨hin, hk⟩
  · have hgrow : 0 ≤ (now - T) * rate := mul_nonneg (by linarith) hrate
    have hcap : level cap rate b now ≤ cap := level_le_cap
    linarith
  · have hlevel : level cap rate b now ≤ b.tokens + (now - b.last) * rate := level_le_refill hlast
    have hsplit : (now - T) * rate = (b.last - T) * rate + (now - b.last) * rate := by ring
    linarith

/-- What was taken in a window is at most the capacity and the refill of the window. -/
theorem Within.le (h : Within cap rate T b k) (hcap : 0 ≤ cap) (hrate : 0 ≤ rate) (hd : 0 ≤ d)
    (hb : 0 ≤ b.tokens) (hlast : b.last ≤ T + d) : k ≤ cap + d * rate := by
  have hwindow : 0 ≤ d * rate := mul_nonneg hd hrate
  rcases h with ⟨rfl, -⟩ | ⟨-, hk⟩
  · linarith
  · have hgrow : (b.last - T) * rate ≤ d * rate := mul_le_mul_of_nonneg_right (by linarith) hrate
    linarith

end order
end AiAuth.Library.TokenBucket
