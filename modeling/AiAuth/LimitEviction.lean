import AiAuth.LimitIsolation
import Mathlib.Data.List.Sort

/-!
# Eviction under memory pressure

Calls that run one after the other. When the map of the tenants is full, a first pass drops the
buckets that are full again, and a second one the least recently used down to half. The first
loses nothing, and the second keeps the newest.
-/
namespace AiAuth.Limits
open Library TokenBucket

/-- A call that runs alone, with the order in which the map is iterated. -/
structure Turn where
  now : ℚ
  order : List Key
  tenantID : Bytes
  op : Bytes
  deriving DecidableEq

namespace RateLimiter

/-- What the first pass keeps. -/
def survivors (l : RateLimiter) (buckets : Dict Key (Bucket ℚ)) (now : ℚ) : Dict Key (Bucket ℚ) :=
  buckets.retain fun _ b => b.tokens + max 0 (now - b.last) * l.refillPerSec < l.capacity

/-- The second pass runs. -/
def crowded (l : RateLimiter) (buckets : Dict Key (Bucket ℚ)) (now : ℚ) : Bool :=
  l.maxBuckets ≤ buckets.size && l.maxBuckets ≤ (l.survivors buckets now).size

/-- The survivors by the time of their last use. -/
def byAge (l : RateLimiter) (buckets : Dict Key (Bucket ℚ)) (now : ℚ) (order : List Key) :
    List (ℚ × Key) :=
  (order.filterMap fun k => ((l.survivors buckets now).get k).map fun b => (b.last, k)).mergeSort
    fun x y => x.1 ≤ y.1

/-- What the second pass removes. -/
def victims (l : RateLimiter) (buckets : Dict Key (Bucket ℚ)) (now : ℚ) (order : List Key) :
    List (ℚ × Key) :=
  (l.byAge buckets now order).take ((l.survivors buckets now).size - l.maxBuckets / 2)

section evict
variable {l : RateLimiter} {buckets : Dict Key (Bucket ℚ)} {now t : ℚ} {order : List Key} {k : Key}

lemma evict_of_crowded (h : l.crowded buckets now = true) : l.evict buckets now order =
    ((l.victims buckets now order).map Prod.snd).foldl Dict.remove (l.survivors buckets now) := by
  simp only [crowded, Bool.and_eq_true, decide_eq_true_eq] at h
  rw [List.foldl_map]
  unfold evict
  rw [if_pos h.1]
  exact if_pos h.2

lemma evict_of_not_crowded (h : l.crowded buckets now = false) : l.evict buckets now order =
    if l.maxBuckets ≤ buckets.size then l.survivors buckets now else buckets := by
  unfold evict
  split_ifs with hsize
  · refine if_neg fun hkept => ?_
    simp only [crowded, hsize, decide_true, Bool.true_and, decide_eq_false_iff_not] at h
    exact h hkept
  · rfl

/-- What a take finds; a key without a bucket is given a full one. -/
def levelOf (l : RateLimiter) (o : Option (Bucket ℚ)) (t : ℚ) : ℚ :=
  level l.capacity l.refillPerSec (o.getD ⟨l.capacity, t⟩) t

/-- The first pass keeps the keys whose next take would not find a full bucket. -/
lemma survivors_isSome :
    ((l.survivors buckets now).get k).isSome ↔ l.levelOf (buckets.get k) now < l.capacity := by
  have hlevel : ∀ b : Bucket ℚ, level l.capacity l.refillPerSec b now < l.capacity ↔
      b.tokens + max 0 (now - b.last) * l.refillPerSec < l.capacity := fun b => by
    rw [level, min_lt_iff, or_iff_left (lt_irrefl _)]
  rw [Option.isSome_iff_exists]
  cases hget : buckets.get k with
  | none =>
    constructor
    · rintro ⟨b, hb⟩
      rw [Dict.get_of_retain hb] at hget
      cases hget
    · intro h
      exact absurd level_full h.ne
  | some b =>
    constructor
    · rintro ⟨b', hb'⟩
      obtain ⟨hsame, hkeep⟩ := Dict.get_retain.mp hb'
      obtain rfl : b = b' := Option.some.inj (hget.symm.trans hsame)
      exact (hlevel b).mpr (of_decide_eq_true hkeep)
    · intro h
      exact ⟨b, Dict.get_retain.mpr ⟨hget, decide_eq_true ((hlevel b).mp h)⟩⟩

/-- A bucket has given a token, or could not. -/
def Spent (l : RateLimiter) (buckets : Dict Key (Bucket ℚ)) : Prop :=
  ∀ k b, buckets.get k = some b → b.tokens < l.capacity

/-- No later take misses a bucket that is dropped when it is full again. -/
lemma levelOf_retain {p : Key → Bucket ℚ → Bool} (hspent : l.Spent buckets)
    (hfull : ∀ k b, buckets.get k = some b → p k b = false →
      l.capacity ≤ b.tokens + max 0 (now - b.last) * l.refillPerSec) (hle : now ≤ t) :
    l.levelOf ((buckets.retain p).get k) t = l.levelOf (buckets.get k) t := by
  cases hkept : (buckets.retain p).get k with
  | some b => rw [Dict.get_of_retain hkept]
  | none =>
    cases hget : buckets.get k with
    | none => rfl
    | some b =>
      have hdropped : p k b = false := by
        by_contra hk
        rw [Dict.get_retain.mpr ⟨hget, Bool.not_eq_false _ ▸ hk⟩] at hkept
        cases hkept
      exact level_full.trans
        (level_of_full (hfull k b hget hdropped) (hspent k b hget) hle).symm

/-- As long as the second pass does not run, no later take notices an eviction. -/
lemma levelOf_evict (hspent : l.Spent buckets) (hq : l.crowded buckets now = false)
    (hle : now ≤ t) :
    l.levelOf ((l.evict buckets now order).get k) t = l.levelOf (buckets.get k) t := by
  rw [evict_of_not_crowded hq]
  split_ifs
  · exact levelOf_retain hspent (fun _ _ _ hp => not_lt.mp (of_decide_eq_false hp)) hle
  · rfl

end evict
end RateLimiter

/-! ## The first pass -/

def Turn.serve (l : RateLimiter) (t : Tables) (c : Turn) : Bool × Tables :=
  l.allow t c.now c.order c.tenantID c.op

/-- The call gets to the tenants' map, and the second pass runs there. -/
def Turn.crowds (l : RateLimiter) (t : Tables) (c : Turn) : Bool :=
  (l.takeGlobal t c.now c.op).1 && l.crowded t.buckets c.now

/-- The state after a call. -/
def served (l : RateLimiter) (t : Tables) (c : Turn) : Option Tables := some (c.serve l t).2

def answers (l : RateLimiter) : Tables → List Turn → List Bool
  | _, [] => []
  | t, c :: cs => (c.serve l t).1 :: answers l (c.serve l t).2 cs

/-- The second pass does not run during the calls. -/
def quiet (l : RateLimiter) : Tables → List Turn → Bool
  | _, [] => true
  | t, c :: cs => !c.crowds l t && quiet l (c.serve l t).2 cs

/-- The same call, in whatever order the map is iterated. -/
structure SameTurn (c c' : Turn) : Prop where
  now : c.now = c'.now
  tenantID : c.tenantID = c'.tenantID
  op : c.op = c'.op

def Tables.without (t : Tables) (drop : Key → Bool) : Tables :=
  { t with buckets := t.buckets.retain fun k _ => !drop k }

/-- No take at `now` or later can tell the tables apart. -/
structure Alike (l : RateLimiter) (now : ℚ) (t t' : Tables) : Prop where
  global : t.global = t'.global
  levels : ∀ k u, now ≤ u → l.levelOf (t.buckets.get k) u = l.levelOf (t'.buckets.get k) u

section lossless
variable {l : RateLimiter} {t t' : Tables} {now : ℚ} {c c' : Turn} {cs cs' : List Turn}

lemma allow_eq (l : RateLimiter) (t : Tables) (now : ℚ) (order : List Key) (tenantID op : Bytes) :
    l.allow t now order tenantID op =
      if (l.takeGlobal t now op).1 then
        l.takeTenant (l.takeGlobal t now op).2 now order (tenantID, op)
      else (false, (l.takeGlobal t now op).2) := by
  unfold RateLimiter.allow
  rcases l.takeGlobal t now op with ⟨_ | _, t'⟩ <;> rfl

lemma Alike.symm (h : Alike l now t t') : Alike l now t' t :=
  ⟨h.global.symm, fun k u hu => (h.levels k u hu).symm⟩

/-- Tables that are alike run the second pass together. -/
lemma Alike.crowded (h : Alike l now t t') :
    l.crowded t.buckets now = l.crowded t'.buckets now := by
  have hcrowded : ∀ buckets : Dict Key (Bucket ℚ), l.crowded buckets now =
      decide (l.maxBuckets ≤ (l.survivors buckets now).size) := by
    intro buckets
    have hsize : (l.survivors buckets now).size ≤ buckets.size := Dict.size_retain_le _ _
    rw [RateLimiter.crowded, Bool.and_eq_right_iff_imp]
    exact fun hkept => decide_eq_true ((of_decide_eq_true hkept).trans hsize)
  have hkeys : ∀ k, ((l.survivors t.buckets now).get k).isSome ↔
      ((l.survivors t'.buckets now).get k).isSome := fun k => by
    rw [RateLimiter.survivors_isSome, RateLimiter.survivors_isSome, h.levels k now le_rfl]
  have hsize : (l.survivors t.buckets now).size = (l.survivors t'.buckets now).size :=
    le_antisymm (Dict.size_le_of_get fun k => (hkeys k).mp)
      (Dict.size_le_of_get fun k => (hkeys k).mpr)
  rw [hcrowded, hcrowded, hsize]

lemma spent_serve (hcap : 1 ≤ l.capacity) (hs : l.Spent t.buckets) :
    l.Spent (c.serve l t).2.buckets := by
  intro k b hb
  rw [Turn.serve, allow_eq] at hb
  split_ifs at hb
  · dsimp only [RateLimiter.takeTenant] at hb
    rcases Dict.get_of_set hb with ⟨-, rfl⟩ | ⟨-, hb⟩
    · exact take_tokens_lt hcap
    · exact hs k b (RateLimiter.get_of_evict hb)
  · exact hs k b hb

lemma spent_run (hcap : 1 ≤ l.capacity) {tr : List Turn}
    (hr : Run (StepOf (served l)) .empty tr t) : l.Spent t.buckets := by
  refine hr.invariant (fun _ t => l.Spent t.buckets) (fun k b hb => ?_) ?_
  · rw [show (Tables.empty.buckets.get k) = none from Dict.get_empty k] at hb
    cases hb
  · intro tr t c t' _ hs hstep
    obtain rfl := Option.some.inj hstep
    exact spent_serve hcap hs

/-- Alike tables give the same answer and are alike afterwards. -/
lemma Alike.serve (h : Alike l now t t') (hs : l.Spent t.buckets) (hs' : l.Spent t'.buckets)
    (hc : SameTurn c c') (hle : now ≤ c.now) (hq : c.crowds l t = false) :
    (c.serve l t).1 = (c'.serve l t').1 ∧ Alike l c.now (c.serve l t).2 (c'.serve l t').2 := by
  obtain ⟨now', order', tenantID, op⟩ := c'
  obtain ⟨rfl, rfl, rfl⟩ := hc
  have hglobal : (l.takeGlobal t c.now c.op).1 = (l.takeGlobal t' c.now c.op).1 ∧
      (l.takeGlobal t c.now c.op).2.global = (l.takeGlobal t' c.now c.op).2.global := by
    simp only [RateLimiter.takeGlobal, h.global, and_self]
  simp only [Turn.serve, allow_eq, ← hglobal.1]
  split_ifs with hok
  · have hcrowded : l.crowded t.buckets c.now = false := by simpa [Turn.crowds, hok] using hq
    have hlater : Alike l c.now t t' := ⟨h.global, fun k u hu => h.levels k u (hle.trans hu)⟩
    have hcrowded' := hlater.crowded.symm.trans hcrowded
    have hlevels : ∀ k u, c.now ≤ u →
        l.levelOf ((l.evict t.buckets c.now c.order).get k) u =
          l.levelOf ((l.evict t'.buckets c.now order').get k) u := fun k u hu => by
      rw [RateLimiter.levelOf_evict hs hcrowded hu, RateLimiter.levelOf_evict hs' hcrowded' hu,
        hlater.levels k u hu]
    have htake : ∀ k, RateLimiter.take (((l.evict t.buckets c.now c.order).get k).getD
          ⟨l.capacity, c.now⟩) c.now l.capacity l.refillPerSec =
        RateLimiter.take (((l.evict t'.buckets c.now order').get k).getD
          ⟨l.capacity, c.now⟩) c.now l.capacity l.refillPerSec := fun k => by
      exact take_congr (hlevels k c.now le_rfl)
    dsimp only [RateLimiter.takeTenant]
    refine ⟨congrArg Prod.fst (htake (c.tenantID, c.op)), hglobal.2, fun k u hu => ?_⟩
    dsimp only
    rw [Dict.get_set, Dict.get_set]
    split_ifs
    · exact congrArg (fun b => l.levelOf (some b) u) (congrArg Prod.snd (htake _))
    · exact hlevels k u hu
  · exact ⟨rfl, hglobal.2, fun k u hu => h.levels k u (hle.trans hu)⟩

lemma times_eq (h : List.Forall₂ SameTurn cs cs') : cs.map Turn.now = cs'.map Turn.now := by
  induction h with
  | nil => rfl
  | cons hc _ ih => rw [List.map_cons, List.map_cons, hc.now, ih]

lemma answers_alike (hcap : 1 ≤ l.capacity) (h : Alike l now t t') (hs : l.Spent t.buckets)
    (hs' : l.Spent t'.buckets) (hsame : List.Forall₂ SameTurn cs cs')
    (htimes : (now :: cs.map Turn.now).Pairwise (· ≤ ·)) (hq : quiet l t cs = true) :
    answers l t cs = answers l t' cs' := by
  induction hsame generalizing now t t' with
  | nil => rfl
  | @cons c c' cs cs' hc _ ih =>
    obtain ⟨hnow, hrest⟩ := List.pairwise_cons.mp htimes
    simp only [quiet, Bool.and_eq_true, Bool.not_eq_true'] at hq
    obtain ⟨hanswer, hafter⟩ := h.serve hs hs' hc (hnow _ List.mem_cons_self) hq.1
    rw [answers, answers, hanswer,
      ih hafter (spent_serve hcap hs) (spent_serve hcap hs') hrest hq.2]

/-- A bucket that cannot hold a token never gives one. -/
lemma answers_of_lt (hcap : l.capacity < 1) : answers l t cs = List.replicate cs.length false := by
  induction cs generalizing t with
  | nil => rfl
  | cons c cs ih =>
    have hfalse : (c.serve l t).1 = false := by
      rw [Turn.serve, allow_eq]
      split_ifs
      · dsimp only [RateLimiter.takeTenant, RateLimiter.take]
        rw [take_fst, decide_eq_false_iff_not]
        exact not_le.mpr (level_le_cap.trans_lt hcap)
      · rfl
    rw [answers, hfalse, ih, List.length_cons, List.replicate_succ]

end lossless

/-- Dropping buckets that are full again changes no answer, as long as nothing else is
dropped. -/
theorem first_pass_lossless {l : RateLimiter} {tr : List Turn} {t : Tables}
    (hr : Run (StepOf (served l)) .empty tr t) {now : ℚ} {drop : Key → Bool}
    (hdrop : ∀ k b, t.buckets.get k = some b → drop k = true →
      l.capacity ≤ b.tokens + max 0 (now - b.last) * l.refillPerSec)
    {cs cs' : List Turn} (hsame : List.Forall₂ SameTurn cs cs')
    (htimes : (now :: cs.map Turn.now).Pairwise (· ≤ ·))
    (hq : quiet l t cs = true ∨ quiet l (t.without drop) cs' = true) :
    answers l t cs = answers l (t.without drop) cs' := by
  by_cases hcap : 1 ≤ l.capacity
  · have hs := spent_run hcap hr
    have hs' : l.Spent (t.without drop).buckets := fun k b hb => hs k b (Dict.get_of_retain hb)
    have halike : Alike l now t (t.without drop) :=
      ⟨rfl, fun k u hu => (RateLimiter.levelOf_retain hs
        (fun k b hb hk => hdrop k b hb (by simpa using hk)) hu).symm⟩
    rcases hq with hq | hq
    · exact answers_alike hcap halike hs hs' hsame htimes hq
    · have hsame' : List.Forall₂ SameTurn cs' cs :=
        hsame.flip.imp fun c' c h => ⟨h.now.symm, h.tenantID.symm, h.op.symm⟩
      rw [times_eq hsame] at htimes
      exact (answers_alike hcap halike.symm hs' hs hsame' htimes hq).symm
  · rw [answers_of_lt (not_le.mp hcap), answers_of_lt (not_le.mp hcap), hsame.length_eq]

namespace Refilled

/-- One token, and room for one tenant. -/
def limiter : RateLimiter := { RateLimiter.new 1 1 with maxBuckets := 1 }

def call (now : ℚ) (tenantID : Bytes) : Turn := ⟨now, [], tenantID, ascii "op"⟩

/-- A tenant has spent its token. -/
def tables : Tables := ((call 0 (ascii "t1")).serve limiter .empty).2

/-- Two seconds later it calls again, and then another one. -/
def later : List Turn := [call 2 (ascii "t1"), call 4 (ascii "t2")]

end Refilled

theorem first_pass_lossless_refilled :
    answers Refilled.limiter Refilled.tables Refilled.later =
      answers Refilled.limiter (Refilled.tables.without fun _ => true) Refilled.later := by
  have hfull : Refilled.tables.buckets.all (fun _ b => Refilled.limiter.capacity ≤
        b.tokens + max 0 (2 - b.last) * Refilled.limiter.refillPerSec) = true ∧
      quiet Refilled.limiter Refilled.tables Refilled.later = true := by
    decide +kernel
  have htimes : ((2 : ℚ) :: Refilled.later.map Turn.now).Pairwise (· ≤ ·) := by
    simp only [Refilled.later, Refilled.call, List.map_cons, List.map_nil]
    norm_num
  have hdrop : ∀ k b, Refilled.tables.buckets.get k = some b → Refilled.limiter.capacity ≤
      b.tokens + max 0 (2 - b.last) * Refilled.limiter.refillPerSec := by
    intro k b hb
    have hb := Dict.all_get hfull.1 hb
    exact of_decide_eq_true hb
  have hr : Run (StepOf (served Refilled.limiter)) .empty [Refilled.call 0 (ascii "t1")]
      Refilled.tables := .single rfl
  exact first_pass_lossless hr (fun k b hb _ => hdrop k b hb)
    (List.forall₂_same.mpr fun _ _ => ⟨rfl, rfl, rfl⟩) htimes (.inl hfull.2)

/-! ## The second pass -/

/-- What is left of `d` is its newest `n` buckets. -/
structure Newest (n : ℕ) (d left : Dict Key (Bucket ℚ)) : Prop where
  size : left.size = n
  kept : ∀ k b, left.get k = some b → d.get k = some b
  newest : ∀ k b k' b', left.get k = some b → d.get k' = some b' → left.get k' = none →
    b'.last ≤ b.last

section newest
variable {l : RateLimiter} {buckets : Dict Key (Bucket ℚ)} {now x : ℚ} {order : List Key} {k : Key}

lemma mem_byAge : (x, k) ∈ l.byAge buckets now order ↔
    k ∈ order ∧ ∃ b, (l.survivors buckets now).get k = some b ∧ b.last = x := by
  unfold RateLimiter.byAge
  rw [(List.mergeSort_perm _ _).mem_iff, List.mem_filterMap]
  simp only [Option.map_eq_some_iff, Prod.mk.injEq]
  constructor
  · rintro ⟨k, hk, b, hb, hlast, rfl⟩
    exact ⟨hk, b, hb, hlast⟩
  · rintro ⟨hk, b, hb, hlast⟩
    exact ⟨k, hk, b, hb, hlast, rfl⟩

lemma byAge_sorted : (l.byAge buckets now order).Pairwise fun x y => x.1 ≤ y.1 := by
  have htrans : ∀ a b c : ℚ × Key, decide (a.1 ≤ b.1) = true → decide (b.1 ≤ c.1) = true →
      decide (a.1 ≤ c.1) = true := by
    intro a b c hab hbc
    rw [decide_eq_true_eq] at *
    exact hab.trans hbc
  have htotal : ∀ a b : ℚ × Key, (decide (a.1 ≤ b.1) || decide (b.1 ≤ a.1)) = true := by
    intro a b
    rw [Bool.or_eq_true, decide_eq_true_eq, decide_eq_true_eq]
    exact le_total a.1 b.1
  refine (List.pairwise_mergeSort htrans htotal _).imp fun hle => ?_
  exact of_decide_eq_true hle

/-- Every survivor is listed once. -/
lemma byAge_keys (horder : order.Perm buckets.keys) :
    ((l.byAge buckets now order).map Prod.snd).Perm (l.survivors buckets now).keys := by
  have hnodup : ((l.byAge buckets now order).map Prod.snd).Nodup := by
    have hsort := (List.mergeSort_perm (order.filterMap fun k =>
      ((l.survivors buckets now).get k).map fun b => (b.last, k)) fun x y => x.1 ≤ y.1).map Prod.snd
    refine hsort.nodup_iff.mpr ?_
    rw [List.map_filterMap]
    refine (horder.nodup_iff.mpr buckets.keys_nodup).filterMap fun a a' b hb hb' => ?_
    simp only [Option.mem_def, Option.map_map, Option.map_eq_some_iff, Function.comp] at hb hb'
    obtain ⟨-, -, rfl⟩ := hb
    obtain ⟨-, -, heq⟩ := hb'
    exact heq.symm
  refine (List.perm_ext_iff_of_nodup hnodup (AList.keys_nodup _)).mpr fun k => ?_
  rw [List.mem_map, Dict.mem_keys_iff, Option.isSome_iff_exists]
  constructor
  · rintro ⟨⟨x, k⟩, hx, rfl⟩
    obtain ⟨-, b, hb, -⟩ := mem_byAge.mp hx
    exact ⟨b, hb⟩
  · rintro ⟨b, hb⟩
    have hk : k ∈ order := by
      rw [horder.mem_iff, Dict.mem_keys_iff, Dict.get_of_retain hb]
      rfl
    exact ⟨(b.last, k), mem_byAge.mpr ⟨hk, b, hb, rfl⟩, rfl⟩

lemma victims_keys : (l.victims buckets now order).map Prod.snd =
    ((l.byAge buckets now order).map Prod.snd).take
      ((l.survivors buckets now).size - l.maxBuckets / 2) := by
  rw [RateLimiter.victims, List.map_take]

/-- The second pass leaves half of the bound. -/
lemma size_evict (h : l.crowded buckets now = true) (horder : order.Perm buckets.keys) :
    (l.evict buckets now order).size = l.maxBuckets / 2 := by
  have hperm : ((l.byAge buckets now order).map Prod.snd).Perm (l.survivors buckets now).keys :=
    byAge_keys horder
  have hnodup : ((l.victims buckets now order).map Prod.snd).Nodup := by
    rw [victims_keys]
    exact (hperm.nodup_iff.mpr (AList.keys_nodup _)).sublist (List.take_sublist _ _)
  have hmem : ∀ k ∈ (l.victims buckets now order).map Prod.snd,
      k ∈ (l.survivors buckets now).keys := by
    intro k hk
    rw [victims_keys] at hk
    exact hperm.mem_iff.mp (List.mem_of_mem_take hk)
  have hcount := Dict.size_foldl_remove hnodup hmem
  have hlength : ((l.victims buckets now order).map Prod.snd).length =
      (l.survivors buckets now).size - l.maxBuckets / 2 := by
    rw [victims_keys, List.length_take, hperm.length_eq, ← Dict.size_eq_length_keys]
    omega
  have hfull : l.maxBuckets ≤ (l.survivors buckets now).size := by
    rw [RateLimiter.crowded, Bool.and_eq_true] at h
    exact of_decide_eq_true h.2
  rw [RateLimiter.evict_of_crowded h]
  omega

/-- The second pass removes no bucket that is newer than one it keeps. -/
lemma evict_newest (h : l.crowded buckets now = true) (horder : order.Perm buckets.keys) :
    Newest (l.maxBuckets / 2) (l.survivors buckets now) (l.evict buckets now order) := by
  have hget : ∀ k b, (l.evict buckets now order).get k = some b ↔
      k ∉ (l.victims buckets now order).map Prod.snd ∧
        (l.survivors buckets now).get k = some b := by
    intro k b
    rw [RateLimiter.evict_of_crowded h]
    exact Dict.get_foldl_remove
  have hlisted : ∀ k b, (l.survivors buckets now).get k = some b →
      (b.last, k) ∈ l.byAge buckets now order := by
    intro k b hb
    refine mem_byAge.mpr ⟨?_, b, hb, rfl⟩
    rw [horder.mem_iff, Dict.mem_keys_iff, Dict.get_of_retain hb]
    rfl
  refine ⟨size_evict h horder, fun k b hb => ((hget k b).mp hb).2, ?_⟩
  intro k b k' b' hb hb' hnone
  obtain ⟨hstays, hb⟩ := (hget k b).mp hb
  have hold : (b.last, k) ∈ (l.byAge buckets now order).drop
      ((l.survivors buckets now).size - l.maxBuckets / 2) := by
    have hmem := hlisted k b hb
    rw [← List.take_append_drop ((l.survivors buckets now).size - l.maxBuckets / 2)
      (l.byAge buckets now order), List.mem_append] at hmem
    exact hmem.resolve_left fun hgone => hstays (List.mem_map_of_mem hgone)
  have hgone : (b'.last, k') ∈ l.victims buckets now order := by
    have hk' : k' ∈ (l.victims buckets now order).map Prod.snd := by
      by_contra hk'
      rw [(hget k' b').mpr ⟨hk', hb'⟩] at hnone
      cases hnone
    obtain ⟨⟨x, k'⟩, hx, rfl⟩ := List.mem_map.mp hk'
    obtain ⟨-, c, hc, rfl⟩ := mem_byAge.mp (List.mem_of_mem_take hx)
    rwa [Option.some.inj (hb'.symm.trans hc)]
  have hsorted : (l.byAge buckets now order).Pairwise fun x y => x.1 ≤ y.1 := byAge_sorted
  rw [← List.take_append_drop ((l.survivors buckets now).size - l.maxBuckets / 2)
    (l.byAge buckets now order), List.pairwise_append] at hsorted
  exact hsorted.2.2 _ hgone _ hold

/-- An eviction makes room for the caller's bucket. -/
lemma size_evict_lt (hmax : 1 ≤ l.maxBuckets) (horder : order.Perm buckets.keys) :
    (l.evict buckets now order).size < l.maxBuckets := by
  cases h : l.crowded buckets now with
  | true =>
    rw [size_evict h horder]
    omega
  | false =>
    rw [RateLimiter.evict_of_not_crowded h]
    split_ifs with hsize
    · rw [RateLimiter.crowded, decide_eq_true hsize, Bool.true_and] at h
      exact not_le.mp (of_decide_eq_false h)
    · exact not_le.mp hsize

end newest

/-- The maps between calls: no more of the tenants' buckets than the bound, and no bucket that
does not fit. -/
structure Bounded (l : RateLimiter) (s : Idle) : Prop where
  size : s.tables.buckets.size ≤ l.maxBuckets
  global : ∀ op b, s.tables.global.get op = some b → Fits l.globalCapacity s.clock b
  buckets : ∀ k b, s.tables.buckets.get k = some b → Fits l.capacity s.clock b

section bounded
variable {l : RateLimiter} {s s' : Idle} {u : Use} {tr : List Use}

lemma use_order (h : l.use s u = some s') : u.order.Perm s.tables.buckets.keys := by
  unfold RateLimiter.use at h
  dsimp only at h
  split_ifs at h with hg
  exact hg.2.1

/-- A call gets an answer, in whatever order the map is iterated. -/
lemma use_allow {now : ℚ} {order : List Key} {tenantID op : Bytes} (hclock : s.clock ≤ now)
    (horder : order.Perm s.tables.buckets.keys) :
    l.use s ⟨now, tenantID, op, order, (l.allow s.tables now order tenantID op).1⟩ =
      some ⟨now, (l.allow s.tables now order tenantID op).2⟩ :=
  if_pos ⟨hclock, horder, rfl⟩

lemma bounded_use (hl : Sane l) (hmax : 1 ≤ l.maxBuckets) (hb : Bounded l s)
    (h : l.use s u = some s') : Bounded l s' := by
  obtain ⟨hglobal, hbuckets⟩ := use_fits hl hb.global hb.buckets h
  refine ⟨?_, hglobal, hbuckets⟩
  obtain ⟨-, -, ⟨-, -, htab⟩ | ⟨-, -, htab⟩⟩ := use_cases h
  · rw [htab]
    exact hb.size
  · rw [htab]
    have hroom : (l.evict s.tables.buckets u.now u.order).size < l.maxBuckets :=
      size_evict_lt hmax (use_order h)
    exact (Dict.size_set_le _ _ _).trans hroom

lemma bounded_run (hl : Sane l) (hmax : 1 ≤ l.maxBuckets) {c₀ : ℚ}
    (hr : Run (StepOf l.use) (Idle.start c₀) tr s) : Bounded l s := by
  refine hr.invariant (fun _ s => Bounded l s) ?_ fun _ s u s' _ hb h => bounded_use hl hmax hb h
  exact ⟨Nat.zero_le _, by simp [Idle.start, Tables.empty], by simp [Idle.start, Tables.empty]⟩

/-- A call under pressure adds its bucket to what the second pass has left. -/
lemma use_crowded (h : l.use s u = some s') (hpaid : (l.takeGlobal s.tables u.now u.op).1 = true)
    (hcrowded : l.crowded s.tables.buckets u.now = true) :
    ∃ left b, s'.tables.buckets = left.set (u.tenantID, u.op) b ∧
      Newest (l.maxBuckets / 2) (l.survivors s.tables.buckets u.now) left := by
  obtain ⟨-, -, ⟨hempty, -, -⟩ | ⟨-, -, htab⟩⟩ := use_cases h
  · rw [takeGlobal_fst, decide_eq_true_eq] at hpaid
    exact absurd hempty (not_lt.mpr hpaid)
  · rw [htab]
    exact ⟨_, _, rfl, evict_newest hcrowded (use_order h)⟩

end bounded

/-- The limiter with another bound on the tenants' buckets. -/
def RateLimiter.sized (capacity : ℕ) (refillPerSec : ℚ) (maxBuckets : ℕ) : RateLimiter :=
  { RateLimiter.new capacity refillPerSec with maxBuckets := maxBuckets }

/-- Every run of calls keeps the bounds, and the second pass keeps the newest half. -/
theorem limiter_invariant {capacity maxBuckets : ℕ} {refill c₀ : ℚ} {tr : List Use} {s : Idle}
    (hrefill : 0 ≤ refill) (hmax : 1 ≤ maxBuckets)
    (hr : Run (StepOf (RateLimiter.sized capacity refill maxBuckets).use) (Idle.start c₀) tr s) :
    Bounded (.sized capacity refill maxBuckets) s ∧
    ∀ u s', (RateLimiter.sized capacity refill maxBuckets).use s u = some s' →
      ((RateLimiter.sized capacity refill maxBuckets).takeGlobal s.tables u.now u.op).1 = true →
      (RateLimiter.sized capacity refill maxBuckets).crowded s.tables.buckets u.now = true →
      ∃ left b, s'.tables.buckets = left.set (u.tenantID, u.op) b ∧
        Newest (maxBuckets / 2)
          ((RateLimiter.sized capacity refill maxBuckets).survivors s.tables.buckets u.now) left := by
  have hnew := sane_new capacity hrefill
  have hl : Sane (.sized capacity refill maxBuckets) :=
    ⟨hnew.capacity, hnew.refill, hnew.globalCapacity, hnew.globalRefill⟩
  exact ⟨bounded_run hl hmax hr, fun u s' => use_crowded⟩

namespace Pressed

def op : Bytes := ascii "op"

/-- One token for each tenant, and room for two tenants. -/
def limiter : RateLimiter := .sized 1 1 2

/-- Two tenants have spent their tokens, one of them a moment ago. -/
def calls : List Use :=
  [⟨0, ascii "t1", op, [], true⟩, ⟨1/2, ascii "t2", op, [(ascii "t1", op)], true⟩]

/-- The call of a third one, with the answer it gets. -/
def third (s : Idle) : Use :=
  ⟨1/2, ascii "t3", op, s.tables.buckets.keys,
    (limiter.allow s.tables (1/2) s.tables.buckets.keys (ascii "t3") op).1⟩

end Pressed

theorem limiter_invariant_pressed :
    ∃ s s' left b, Pressed.limiter.use s (Pressed.third s) = some s' ∧
      s'.tables.buckets = left.set (ascii "t3", Pressed.op) b ∧
      Newest 1 (Pressed.limiter.survivors s.tables.buckets (1/2)) left := by
  obtain ⟨s, hr, hs⟩ := Run.exists_of_foldlM_any Pressed.limiter.use
    (fun s => s.clock ≤ 1/2 && ((Pressed.limiter.takeGlobal s.tables (1/2) Pressed.op).1 &&
      Pressed.limiter.crowded s.tables.buckets (1/2)))
    (Idle.start 0) Pressed.calls (by decide +kernel)
  rw [Bool.and_eq_true, Bool.and_eq_true, decide_eq_true_eq] at hs
  obtain ⟨hclock, hpaid, hcrowded⟩ := hs
  have hs' : Pressed.limiter.use s (Pressed.third s) = some _ := use_allow hclock (.refl _)
  obtain ⟨left, b, hset, hnewest⟩ := (limiter_invariant zero_le_one one_le_two hr).2
    (Pressed.third s) _ hs' hpaid hcrowded
  exact ⟨s, _, left, b, hs', hset, hnewest⟩

namespace Drained

def op : Bytes := ascii "op"

/-- Two tokens, and one fewer each second. -/
def limiter : RateLimiter := .new 2 (-1)

def calls : List Use :=
  [⟨0, ascii "t1", op, [], true⟩, ⟨5, ascii "t1", op, [(ascii "t1", op)], false⟩]

end Drained

/-- A rate below zero is accepted, and takes tokens that a bucket does not have. -/
theorem limiter_overdrawn : ∃ s b, Run (StepOf Drained.limiter.use) (Idle.start 0) Drained.calls s ∧
    s.tables.global.get Drained.op = some b ∧ b.tokens = -151 ∧ ¬ Bounded Drained.limiter s := by
  obtain ⟨s, hr, hs⟩ := Run.exists_of_foldlM_any Drained.limiter.use
    (fun s => (s.tables.global.get Drained.op).any fun b => b.tokens = -151)
    (Idle.start 0) Drained.calls (by decide +kernel)
  obtain ⟨b, hb, htokens⟩ := (Option.any_eq_true _ _).mp hs
  have hdrained : b.tokens = -151 := of_decide_eq_true htokens
  refine ⟨s, b, hr, hb, hdrained, fun hbounded => ?_⟩
  have hfits : 0 ≤ b.tokens := (hbounded.global _ _ hb).1
  rw [hdrained] at hfits
  norm_num at hfits

end AiAuth.Limits
