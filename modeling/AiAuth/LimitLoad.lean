import AiAuth.LimitEviction
import AiAuth.LimitIsolation

/-!
# The limiter under a lighter load

Calls made one after the other while the map has room. A granted call costs one token of the
operation and one of its tenant, so calls that are taken out of a run in which none is refused
leave more for the others.
-/
namespace AiAuth.Limits
open Library TokenBucket

/-- Every bucket is within its bounds, and none is ahead of the clock. -/
structure Kept (l : RateLimiter) (clock : ℚ) (t : Tables) : Prop where
  global : ∀ op b, t.global.get op = some b → Fits l.globalCapacity clock b
  buckets : ∀ k b, t.buckets.get k = some b → Fits l.capacity clock b

/-- The second tables are those of a lighter load: every bucket holds at least what it holds in
the first. Both maps stay within the keys. -/
structure Lighter (l : RateLimiter) (keys : Finset Key) (clock : ℚ) (t t' : Tables) : Prop where
  kept : Kept l clock t
  kept' : Kept l clock t'
  known : ∀ k b, t.buckets.get k = some b → k ∈ keys
  known' : ∀ k b, t'.buckets.get k = some b → k ∈ keys
  global : ∀ op, l.globalLevel t clock op ≤ l.globalLevel t' clock op
  own : ∀ k, l.ownLevel t clock k ≤ l.ownLevel t' clock k

section allow
variable {l : RateLimiter} {t t' : Tables} {now clock : ℚ} {order order' : List Key}
  {tenantID op op' : Bytes} {k : Key}

lemma kept_empty : Kept l clock .empty :=
  ⟨fun op b hb => by simp [Tables.empty] at hb, fun k b hb => by simp [Tables.empty] at hb⟩

lemma Kept.later (h : Kept l clock t) (hle : clock ≤ now) : Kept l now t :=
  ⟨fun op b hb => (h.global op b hb).mono hle, fun k b hb => (h.buckets k b hb).mono hle⟩

lemma Kept.allow (hl : Sane l) (h : Kept l now t) :
    Kept l now (l.allow t now order tenantID op).2 := by
  have hpaid : ∀ op' b, (l.takeGlobal t now op).2.global.get op' = some b →
      Fits l.globalCapacity now b := fits_takeGlobal hl le_rfl h.global
  rw [allow_eq]
  split_ifs
  · exact ⟨hpaid, fits_takeTenant hl le_rfl h.buckets⟩
  · exact ⟨hpaid, h.buckets⟩

/-- A call adds no key but its own. -/
lemma get_allow {b : Bucket ℚ} (h : (l.allow t now order tenantID op).2.buckets.get k = some b) :
    k = (tenantID, op) ∨ ∃ b', t.buckets.get k = some b' := by
  rw [allow_eq] at h
  split_ifs at h
  · dsimp only [RateLimiter.takeTenant] at h
    rcases Dict.get_of_set h with ⟨rfl, -⟩ | ⟨-, h⟩
    · exact .inl rfl
    · exact .inr ⟨b, RateLimiter.get_of_evict h⟩
  · exact .inr ⟨b, h⟩

/-- A call is granted where both buckets hold a token. -/
lemma allow_fst (hroom : t.buckets.size < l.maxBuckets) :
    (l.allow t now order tenantID op).1 = true ↔
      1 ≤ l.globalLevel t now op ∧ 1 ≤ l.ownLevel t now (tenantID, op) := by
  have hroom' : (l.takeGlobal t now op).2.buckets.size < l.maxBuckets := hroom
  rw [allow_eq, takeGlobal_fst]
  by_cases hglobal : 1 ≤ l.globalLevel t now op
  · rw [if_pos (decide_eq_true hglobal), takeTenant_fst hroom', ownLevel_takeGlobal]
    simp [hglobal]
  · rw [if_neg (by simpa using hglobal)]
    simp [hglobal]

lemma globalLevel_allow (h : (l.allow t now order tenantID op).1 = true) :
    l.globalLevel (l.allow t now order tenantID op).2 now op' =
      l.globalLevel t now op' - if op' = op then 1 else 0 := by
  rw [allow_eq] at h ⊢
  split_ifs at h ⊢ with hpaid hop
  · rw [globalLevel_takeTenant, globalLevel_takeGlobal, hpaid, if_pos hop]
    rfl
  · rw [globalLevel_takeTenant, globalLevel_takeGlobal, hpaid, if_neg hop]

lemma ownLevel_allow (hroom : t.buckets.size < l.maxBuckets)
    (h : (l.allow t now order tenantID op).1 = true) :
    l.ownLevel (l.allow t now order tenantID op).2 now k =
      l.ownLevel t now k - if k = (tenantID, op) then 1 else 0 := by
  have hroom' : (l.takeGlobal t now op).2.buckets.size < l.maxBuckets := hroom
  rw [allow_eq] at h ⊢
  split_ifs at h ⊢ with hpaid hkey
  · rw [ownLevel_takeTenant hroom', ownLevel_takeGlobal, h, if_pos hkey]
    rfl
  · rw [ownLevel_takeTenant hroom', ownLevel_takeGlobal, if_neg hkey]

end allow

section lighter
variable {l : RateLimiter} {keys : Finset Key} {t t' : Tables} {now clock : ℚ}
  {order order' : List Key} {tenantID op : Bytes}

lemma lighter_empty : Lighter l keys clock .empty .empty :=
  ⟨kept_empty, kept_empty, fun k b hb => by simp [Tables.empty] at hb,
    fun k b hb => by simp [Tables.empty] at hb, fun _ => le_rfl, fun _ => le_rfl⟩

/-- The map stays within its keys. -/
lemma keys_allow (hkey : (tenantID, op) ∈ keys)
    (h : ∀ k b, t.buckets.get k = some b → k ∈ keys) (k : Key) (b : Bucket ℚ)
    (hb : (l.allow t now order tenantID op).2.buckets.get k = some b) : k ∈ keys := by
  rcases get_allow hb with rfl | ⟨b', hb'⟩
  · exact hkey
  · exact h k b' hb'

lemma Lighter.later (hl : Sane l) (h : Lighter l keys clock t t') (hle : clock ≤ now) :
    Lighter l keys now t t' where
  kept := h.kept.later hle
  kept' := h.kept'.later hle
  known := h.known
  known' := h.known'
  global op := by
    have hleft : l.globalLevel t now op = min (l.globalLevel t clock op +
        (now - clock) * l.globalRefillPerSec) l.globalCapacity :=
      level_getD_later hl.globalRefill (h.kept.global op) hle
    have hright : l.globalLevel t' now op = min (l.globalLevel t' clock op +
        (now - clock) * l.globalRefillPerSec) l.globalCapacity :=
      level_getD_later hl.globalRefill (h.kept'.global op) hle
    rw [hleft, hright]
    exact min_le_min_right _ (add_le_add_left (h.global op) _)
  own k := by
    have hleft : l.ownLevel t now k = min (l.ownLevel t clock k +
        (now - clock) * l.refillPerSec) l.capacity :=
      level_getD_later hl.refill (h.kept.buckets k) hle
    have hright : l.ownLevel t' now k = min (l.ownLevel t' clock k +
        (now - clock) * l.refillPerSec) l.capacity :=
      level_getD_later hl.refill (h.kept'.buckets k) hle
    rw [hleft, hright]
    exact min_le_min_right _ (add_le_add_left (h.own k) _)

/-- A call that is left out of the second run. -/
lemma Lighter.skip (hl : Sane l) (hroom : keys.card < l.maxBuckets)
    (h : Lighter l keys now t t') (hkey : (tenantID, op) ∈ keys)
    (hallow : (l.allow t now order tenantID op).1 = true) :
    Lighter l keys now (l.allow t now order tenantID op).2 t' where
  kept := h.kept.allow hl
  kept' := h.kept'
  known := keys_allow hkey h.known
  known' := h.known'
  global op' := by
    rw [globalLevel_allow hallow]
    exact (sub_le_self _ (by split_ifs <;> norm_num)).trans (h.global op')
  own k := by
    rw [ownLevel_allow ((Dict.size_le_card h.known).trans_lt hroom) hallow]
    exact (sub_le_self _ (by split_ifs <;> norm_num)).trans (h.own k)

/-- A call of both runs: what is granted under the load is granted without it. -/
lemma Lighter.both (order' : List Key) (hl : Sane l) (hroom : keys.card < l.maxBuckets)
    (h : Lighter l keys now t t') (hkey : (tenantID, op) ∈ keys)
    (hallow : (l.allow t now order tenantID op).1 = true) :
    (l.allow t' now order' tenantID op).1 = true ∧ Lighter l keys now
      (l.allow t now order tenantID op).2 (l.allow t' now order' tenantID op).2 := by
  have hsize : t.buckets.size < l.maxBuckets := (Dict.size_le_card h.known).trans_lt hroom
  have hsize' : t'.buckets.size < l.maxBuckets := (Dict.size_le_card h.known').trans_lt hroom
  obtain ⟨hglobal, hown⟩ := (allow_fst hsize).mp hallow
  have hallow' : (l.allow t' now order' tenantID op).1 = true :=
    (allow_fst hsize').mpr ⟨hglobal.trans (h.global op), hown.trans (h.own (tenantID, op))⟩
  refine ⟨hallow', h.kept.allow hl, h.kept'.allow hl, keys_allow hkey h.known,
    keys_allow hkey h.known', fun op' => ?_, fun k => ?_⟩
  · rw [globalLevel_allow hallow, globalLevel_allow hallow']
    exact sub_le_sub_right (h.global op') _
  · rw [ownLevel_allow hsize hallow, ownLevel_allow hsize' hallow']
    exact sub_le_sub_right (h.own k) _

end lighter

/-! ## What a window grants -/

section window
variable {l : RateLimiter} {t : Tables} {now T : ℚ} {order : List Key} {tenantID op op' : Bytes}
  {k : Key} {n : ℕ}

/-- The operation's bucket accounts for every call that is granted. -/
lemma accounted_allow (hl : Sane l) (hk : Kept l now t) (hT : T ≤ now)
    (h : Accounted l.globalCapacity l.globalRefillPerSec T (t.global.get op) n) :
    ∃ n', n + (decide (op' = op) && (l.allow t now order tenantID op').1).toNat ≤ n' ∧
      Accounted l.globalCapacity l.globalRefillPerSec T
        ((l.allow t now order tenantID op').2.global.get op) n' := by
  have hglobal : (l.allow t now order tenantID op').2.global =
      (l.takeGlobal t now op').2.global := by
    rw [allow_eq]
    split_ifs <;> rfl
  have hpaid : (l.allow t now order tenantID op').1 = true → (l.takeGlobal t now op').1 = true := by
    rw [allow_eq]
    split_ifs with hok
    · exact fun _ => hok
    · exact fun h => h.elim
  rw [hglobal, RateLimiter.takeGlobal, Dict.get_set]
  by_cases hop : op = op'
  · subst hop
    rw [if_pos rfl]
    refine ⟨_, ?_, accounted_take hl.globalRefill h hT fun b hb => (hk.global op b hb).last_le⟩
    rw [decide_eq_true rfl, Bool.true_and]
    refine Nat.add_le_add_left ?_ n
    cases hallow : (l.allow t now order tenantID op).1 with
    | false => exact Nat.zero_le _
    | true => exact (congrArg Bool.toNat (hpaid hallow)).ge
  · rw [if_neg hop, decide_eq_false (Ne.symm hop)]
    exact ⟨n, le_rfl, h⟩

/-- While the map has room, so does the bucket of every tenant. -/
lemma accounted_allow_own (hl : Sane l) (hk : Kept l now t)
    (hroom : t.buckets.size < l.maxBuckets) (hT : T ≤ now)
    (h : Accounted l.capacity l.refillPerSec T (t.buckets.get k) n) :
    ∃ n', n + (decide ((tenantID, op) = k) && (l.allow t now order tenantID op).1).toNat ≤ n' ∧
      Accounted l.capacity l.refillPerSec T
        ((l.allow t now order tenantID op).2.buckets.get k) n' := by
  rw [allow_eq]
  split_ifs with hpaid
  · have hroom' : (l.takeGlobal t now op).2.buckets.size < l.maxBuckets := hroom
    have hevict : l.evict (l.takeGlobal t now op).2.buckets now order = t.buckets :=
      RateLimiter.evict_of_lt hroom'
    simp only [RateLimiter.takeTenant, hevict, Dict.get_set]
    by_cases hkey : k = (tenantID, op)
    · subst hkey
      rw [if_pos rfl, decide_eq_true rfl, Bool.true_and]
      exact ⟨_, le_rfl, accounted_take hl.refill h hT fun b hb => (hk.buckets _ b hb).last_le⟩
    · rw [if_neg hkey, decide_eq_false (Ne.symm hkey)]
      exact ⟨n, le_rfl, h⟩
  · rw [Bool.and_false]
    exact ⟨n, le_rfl, h⟩

end window
end AiAuth.Limits
