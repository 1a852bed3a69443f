import AiAuth.Library.Runs
import AiAuth.LimitRuns
import Mathlib.Algebra.BigOperators.Group.Finset.Piecewise
import Mathlib.Algebra.Order.BigOperators.Group.Finset

/-!
# Tenants and the shared budget

Calls made one after the other. As long as an operation's bucket holds what its tenants
hold together, it refuses nobody whose own bucket would not.
-/
namespace AiAuth.Limits
open Library TokenBucket

/-- A finished call and its answer. -/
structure Use where
  now : ℚ
  tenantID : Bytes
  op : Bytes
  order : List Key
  ok : Bool

/-- The limiter between calls. -/
structure Idle where
  clock : ℚ
  tables : Tables

def Idle.start (clock : ℚ) : Idle := ⟨clock, .empty⟩

namespace RateLimiter

def use (l : RateLimiter) (s : Idle) (u : Use) : Option Idle :=
  let res := l.allow s.tables u.now u.order u.tenantID u.op
  if s.clock ≤ u.now ∧ u.order.Perm s.tables.buckets.keys ∧ res.1 = u.ok then
    some ⟨u.now, res.2⟩
  else none

/-- What the operation's bucket holds; one that does not exist yet is full. -/
def globalLevel (l : RateLimiter) (t : Tables) (now : ℚ) (op : Bytes) : ℚ :=
  level l.globalCapacity l.globalRefillPerSec ((t.global.get op).getD ⟨l.globalCapacity, now⟩) now

/-- What a tenant's bucket holds. -/
def ownLevel (l : RateLimiter) (t : Tables) (now : ℚ) (k : Key) : ℚ :=
  level l.capacity l.refillPerSec ((t.buckets.get k).getD ⟨l.capacity, now⟩) now

/-- What the buckets of several tenants hold together. -/
def held (l : RateLimiter) (t : Tables) (now : ℚ) (op : Bytes) (ts : Finset Bytes) : ℚ :=
  ∑ x ∈ ts, l.ownLevel t now (x, op)

/-- A call that its own bucket refuses leaves the operation's bucket with as much as the
tenants hold. -/
def hasSlack (l : RateLimiter) (ts : Bytes → Finset Bytes) (s : Idle) (u : Use) : Bool :=
  l.globalLevel s.tables u.now u.op < 1 || 1 ≤ l.ownLevel s.tables u.now (u.tenantID, u.op) ||
    l.held s.tables u.now u.op (ts u.op) + 1 ≤ l.globalLevel s.tables u.now u.op

end RateLimiter

/-- The operation's bucket covers its tenants'; the map is below its bound. -/
structure Covered (l : RateLimiter) (ts : Bytes → Finset Bytes) (keys : Finset Key) (s : Idle) :
    Prop where
  global : ∀ op b, s.tables.global.get op = some b → Fits l.globalCapacity s.clock b
  buckets : ∀ k b, s.tables.buckets.get k = some b → Fits l.capacity s.clock b
  keys : ∀ k b, s.tables.buckets.get k = some b → k ∈ keys
  covers : ∀ op, l.held s.tables s.clock op (ts op) ≤ l.globalLevel s.tables s.clock op

section covered
variable {l : RateLimiter} {ts : Bytes → Finset Bytes} {keys : Finset Key} {s s' : Idle} {u : Use}

lemma level_full {cap rate now : ℚ} : level cap rate ⟨cap, now⟩ now = cap := by
  simp [level]

/-- A bucket that may not exist yet, at a later time. -/
lemma level_getD_later {cap rate now later : ℚ} {o : Option (Bucket ℚ)} (hrate : 0 ≤ rate)
    (h : ∀ b, o = some b → Fits cap now b) (hle : now ≤ later) :
    level cap rate (o.getD ⟨cap, later⟩) later =
      min (level cap rate (o.getD ⟨cap, now⟩) now + (later - now) * rate) cap := by
  cases o with
  | none =>
    have hgrow : 0 ≤ (later - now) * rate := mul_nonneg (by linarith) hrate
    rw [Option.getD_none, Option.getD_none, level_full, level_full, min_eq_right (by linarith)]
  | some b => exact level_later hrate (h b rfl).last_le hle

lemma ownLevel_nonneg (hl : Sane l) (hc : Covered l ts keys s) (now : ℚ) (k : Key) :
    0 ≤ l.ownLevel s.tables now k := by
  refine level_nonneg hl.capacity hl.refill ?_
  cases hb : s.tables.buckets.get k with
  | none => exact hl.capacity
  | some b => exact (hc.buckets k b hb).nonneg

/-- The cover holds at the time of the next call: what the tenants gain together is at most
what the operation's bucket gains. -/
lemma covers_later (hl : Sane l) (hratio : l.globalCapacity = l.capacity * 50)
    (hrefill : l.globalRefillPerSec = l.refillPerSec * 50) (hts : ∀ op, (ts op).card ≤ 50)
    (hc : Covered l ts keys s) {now : ℚ} (hle : s.clock ≤ now) (op : Bytes) :
    l.held s.tables now op (ts op) ≤ l.globalLevel s.tables now op := by
  have hcard : ((ts op).card : ℚ) ≤ 50 := by exact_mod_cast hts op
  have hgrow : 0 ≤ (now - s.clock) * l.refillPerSec := mul_nonneg (by linarith) hl.refill
  have hown : ∀ x, l.ownLevel s.tables now (x, op) =
      min (l.ownLevel s.tables s.clock (x, op) + (now - s.clock) * l.refillPerSec) l.capacity :=
    fun x => level_getD_later hl.refill (hc.buckets (x, op)) hle
  have hglobal : l.globalLevel s.tables now op = min (l.globalLevel s.tables s.clock op +
      (now - s.clock) * l.globalRefillPerSec) l.globalCapacity :=
    level_getD_later hl.globalRefill (hc.global op) hle
  rw [hglobal, hratio, hrefill]
  refine le_min ?_ ?_
  · calc l.held s.tables now op (ts op)
        ≤ ∑ x ∈ ts op, (l.ownLevel s.tables s.clock (x, op) + (now - s.clock) * l.refillPerSec) :=
          Finset.sum_le_sum fun x _ => (hown x).trans_le (min_le_left _ _)
      _ = l.held s.tables s.clock op (ts op) +
          (ts op).card * ((now - s.clock) * l.refillPerSec) := by
          rw [Finset.sum_add_distrib, Finset.sum_const, nsmul_eq_mul, RateLimiter.held]
      _ ≤ l.globalLevel s.tables s.clock op + 50 * ((now - s.clock) * l.refillPerSec) :=
          add_le_add (hc.covers op) (mul_le_mul_of_nonneg_right hcard hgrow)
      _ = l.globalLevel s.tables s.clock op + (now - s.clock) * (l.refillPerSec * 50) := by ring
  · calc l.held s.tables now op (ts op)
        ≤ (ts op).card • l.capacity :=
          Finset.sum_le_card_nsmul _ _ _ fun x _ => (hown x).trans_le (min_le_right _ _)
      _ = (ts op).card * l.capacity := nsmul_eq_mul _ _
      _ ≤ 50 * l.capacity := mul_le_mul_of_nonneg_right hcard hl.capacity
      _ = l.capacity * 50 := mul_comm _ _

end covered

/-! ## One call -/

section call
variable {l : RateLimiter} {t : Tables} {now : ℚ} {order : List Key} {key k : Key} {op op' : Bytes}

lemma takeGlobal_fst : (l.takeGlobal t now op).1 = decide (1 ≤ l.globalLevel t now op) := take_fst

lemma globalLevel_takeGlobal : l.globalLevel (l.takeGlobal t now op).2 now op' =
    l.globalLevel t now op' - if op' = op then cost (l.takeGlobal t now op).1 else 0 := by
  unfold RateLimiter.globalLevel RateLimiter.takeGlobal
  dsimp only
  rw [Dict.get_set]
  by_cases h : op' = op
  · rw [if_pos h, if_pos h, h, Option.getD_some]
    exact level_take
  · rw [if_neg h, if_neg h, sub_zero]

lemma ownLevel_takeGlobal :
    l.ownLevel (l.takeGlobal t now op).2 now k = l.ownLevel t now k := rfl

lemma held_takeGlobal {ts : Finset Bytes} :
    l.held (l.takeGlobal t now op).2 now op' ts = l.held t now op' ts := rfl

lemma takeTenant_fst (hroom : t.buckets.size < l.maxBuckets) :
    (l.takeTenant t now order key).1 = decide (1 ≤ l.ownLevel t now key) := by
  unfold RateLimiter.takeTenant
  rw [RateLimiter.evict_of_lt hroom]
  exact take_fst

lemma ownLevel_takeTenant (hroom : t.buckets.size < l.maxBuckets) :
    l.ownLevel (l.takeTenant t now order key).2 now k =
      l.ownLevel t now k - if k = key then cost (l.takeTenant t now order key).1 else 0 := by
  unfold RateLimiter.ownLevel RateLimiter.takeTenant
  dsimp only
  rw [RateLimiter.evict_of_lt hroom, Dict.get_set]
  by_cases h : k = key
  · rw [if_pos h, if_pos h, h, Option.getD_some]
    exact level_take
  · rw [if_neg h, if_neg h, sub_zero]

lemma globalLevel_takeTenant :
    l.globalLevel (l.takeTenant t now order key).2 now op' = l.globalLevel t now op' := rfl

/-- What a tenant's bucket pays is missing from what its operation's tenants hold. -/
lemma held_takeTenant {ts : Finset Bytes} (hroom : t.buckets.size < l.maxBuckets)
    (hmem : op' = key.2 → key.1 ∈ ts) : l.held (l.takeTenant t now order key).2 now op' ts =
      l.held t now op' ts - if op' = key.2 then cost (l.takeTenant t now order key).1 else 0 := by
  unfold RateLimiter.held
  simp only [ownLevel_takeTenant hroom, Finset.sum_sub_distrib]
  by_cases h : op' = key.2
  · have hkey : ∀ x, (x, op') = key ↔ x = key.1 := fun x => by simp [Prod.ext_iff, h]
    simp only [hkey, if_pos h, Finset.sum_ite_eq', if_pos (hmem h)]
  · have hkey : ∀ x, (x, op') ≠ key := fun x hx => h (hx ▸ rfl)
    simp only [if_neg (hkey _), if_neg h, Finset.sum_const_zero]

end call

section run
variable {l : RateLimiter} {ts : Bytes → Finset Bytes} {keys : Finset Key} {s s' : Idle} {u : Use}
  {tr : List Use}

/-- What a call can do: the operation's bucket refuses it, or its tenant's bucket decides. -/
lemma use_cases (h : l.use s u = some s') :
    s.clock ≤ u.now ∧ s'.clock = u.now ∧
    ((l.globalLevel s.tables u.now u.op < 1 ∧ u.ok = false ∧
        s'.tables = (l.takeGlobal s.tables u.now u.op).2) ∨
      (1 ≤ l.globalLevel s.tables u.now u.op ∧
        u.ok = (l.takeTenant (l.takeGlobal s.tables u.now u.op).2 u.now u.order
          (u.tenantID, u.op)).1 ∧
        s'.tables = (l.takeTenant (l.takeGlobal s.tables u.now u.op).2 u.now u.order
          (u.tenantID, u.op)).2)) := by
  unfold RateLimiter.use at h
  dsimp only at h
  split_ifs at h with hg
  obtain ⟨hle, -, hok⟩ := hg
  obtain rfl := Option.some.inj h
  refine ⟨hle, rfl, ?_⟩
  have hfst : (l.takeGlobal s.tables u.now u.op).1 =
      decide (1 ≤ l.globalLevel s.tables u.now u.op) := takeGlobal_fst
  cases hres : l.takeGlobal s.tables u.now u.op with
  | mk ok t =>
    rw [hres] at hfst
    unfold RateLimiter.allow at hok ⊢
    rw [hres] at hok ⊢
    cases ok with
    | false => exact .inl ⟨by simpa using hfst, hok.symm, rfl⟩
    | true => exact .inr ⟨by simpa using hfst, hok.symm, rfl⟩

/-- Fewer keys than the bound: the map has room. -/
lemma room (hc : Covered l ts keys s) (hkeys : keys.card < l.maxBuckets) :
    s.tables.buckets.size < l.maxBuckets :=
  (Dict.size_le_card hc.keys).trans_lt hkeys

/-- The buckets after a call, under the bounds that hold of any bucket. -/
lemma use_fits (hl : Sane l)
    (hglobal : ∀ op b, s.tables.global.get op = some b → Fits l.globalCapacity s.clock b)
    (hbuckets : ∀ k b, s.tables.buckets.get k = some b → Fits l.capacity s.clock b)
    (h : l.use s u = some s') :
    (∀ op b, s'.tables.global.get op = some b → Fits l.globalCapacity s'.clock b) ∧
    ∀ k b, s'.tables.buckets.get k = some b → Fits l.capacity s'.clock b := by
  obtain ⟨hle, hclock, hcase⟩ := use_cases h
  rw [hclock]
  have hpaid : ∀ op b, (l.takeGlobal s.tables u.now u.op).2.global.get op = some b →
      Fits l.globalCapacity u.now b :=
    fits_takeGlobal hl le_rfl fun op b hb => (hglobal op b hb).mono hle
  have hold : ∀ k b, s.tables.buckets.get k = some b → Fits l.capacity u.now b :=
    fun k b hb => (hbuckets k b hb).mono hle
  rcases hcase with ⟨-, -, htab⟩ | ⟨-, -, htab⟩
  · rw [htab]
    exact ⟨hpaid, hold⟩
  · rw [htab]
    exact ⟨hpaid, fits_takeTenant hl le_rfl hold⟩

/-- A call adds no key but its own. -/
lemma use_keys (hkey : (u.tenantID, u.op) ∈ keys)
    (hkeys : ∀ k b, s.tables.buckets.get k = some b → k ∈ keys) (h : l.use s u = some s') (k : Key)
    (b : Bucket ℚ) (hb : s'.tables.buckets.get k = some b) : k ∈ keys := by
  obtain ⟨-, -, ⟨-, -, htab⟩ | ⟨-, -, htab⟩⟩ := use_cases h
  · rw [htab] at hb
    exact hkeys k b hb
  · rw [htab] at hb
    dsimp only [RateLimiter.takeTenant] at hb
    rcases Dict.get_of_set hb with ⟨rfl, -⟩ | ⟨-, hb⟩
    · exact hkey
    · exact hkeys k b (RateLimiter.get_of_evict hb)

/-- The operation's bucket pays for what a tenant's bucket pays, and has the slack for a call
that pays alone. -/
lemma covers_use (hl : Sane l) (hratio : l.globalCapacity = l.capacity * 50)
    (hrefill : l.globalRefillPerSec = l.refillPerSec * 50) (hts : ∀ op, (ts op).card ≤ 50)
    (hkeys : keys.card < l.maxBuckets) (hmem : u.tenantID ∈ ts u.op)
    (hc : Covered l ts keys s) (hslack : l.hasSlack ts s u = true) (h : l.use s u = some s')
    (op : Bytes) : l.held s'.tables s'.clock op (ts op) ≤ l.globalLevel s'.tables s'.clock op := by
  obtain ⟨hle, hclock, hcase⟩ := use_cases h
  rw [hclock]
  have hcover := covers_later hl hratio hrefill hts hc hle op
  have hroom : (l.takeGlobal s.tables u.now u.op).2.buckets.size < l.maxBuckets := room hc hkeys
  rcases hcase with ⟨hempty, -, htab⟩ | ⟨hfull, -, htab⟩
  · have hpaid : (l.takeGlobal s.tables u.now u.op).1 = false := by
      rw [takeGlobal_fst, decide_eq_false (not_le.mpr hempty)]
    rw [htab, globalLevel_takeGlobal, held_takeGlobal, hpaid]
    simpa [cost] using hcover
  · have hpaid : (l.takeGlobal s.tables u.now u.op).1 = true := by
      rw [takeGlobal_fst, decide_eq_true hfull]
    have hglobal : l.globalLevel s'.tables u.now op =
        l.globalLevel s.tables u.now op - if op = u.op then 1 else 0 := by
      rw [htab, globalLevel_takeTenant, globalLevel_takeGlobal, hpaid]
      rfl
    have hheld : l.held s'.tables u.now op (ts op) = l.held s.tables u.now op (ts op) -
        if op = u.op then cost (decide (1 ≤ l.ownLevel s.tables u.now (u.tenantID, u.op)))
        else 0 := by
      rw [htab, held_takeTenant hroom fun hop => hop ▸ hmem, held_takeGlobal, takeTenant_fst hroom,
        ownLevel_takeGlobal]
    rw [hglobal, hheld]
    by_cases hop : op = u.op
    · rw [if_pos hop, if_pos hop]
      by_cases hown : 1 ≤ l.ownLevel s.tables u.now (u.tenantID, u.op)
      · rw [decide_eq_true hown]
        simpa [cost] using hcover
      · rw [decide_eq_false hown]
        have hspare : l.held s.tables u.now u.op (ts u.op) + 1 ≤
            l.globalLevel s.tables u.now u.op := by
          simpa [RateLimiter.hasSlack, hown, not_lt.mpr hfull] using hslack
        rw [← hop] at hspare
        simp only [cost, Bool.false_eq_true, if_false, sub_zero]
        linarith
    · rw [if_neg hop, if_neg hop, sub_zero, sub_zero]
      exact hcover

lemma covered_start (hl : Sane l) (hratio : l.globalCapacity = l.capacity * 50)
    (hts : ∀ op, (ts op).card ≤ 50) (c₀ : ℚ) : Covered l ts keys (Idle.start c₀) := by
  refine ⟨by simp [Idle.start, Tables.empty], by simp [Idle.start, Tables.empty],
    by simp [Idle.start, Tables.empty], fun op => ?_⟩
  have hcard : ((ts op).card : ℚ) ≤ 50 := by exact_mod_cast hts op
  have hown : ∀ x, l.ownLevel Tables.empty c₀ (x, op) = l.capacity := fun x => level_full
  calc l.held Tables.empty c₀ op (ts op)
      = (ts op).card * l.capacity := by
        simp only [RateLimiter.held, hown, Finset.sum_const, nsmul_eq_mul]
    _ ≤ 50 * l.capacity := mul_le_mul_of_nonneg_right hcard hl.capacity
    _ = l.globalLevel Tables.empty c₀ op := by
        rw [mul_comm, ← hratio]
        exact level_full.symm

lemma covered_run (hl : Sane l) (hratio : l.globalCapacity = l.capacity * 50)
    (hrefill : l.globalRefillPerSec = l.refillPerSec * 50) (hts : ∀ op, (ts op).card ≤ 50)
    (hkeys : keys.card < l.maxBuckets) {c₀ : ℚ}
    (hr : Run (Guarded (fun s u => l.hasSlack ts s u) (StepOf l.use)) (Idle.start c₀) tr s)
    (huse : ∀ v ∈ tr, v.tenantID ∈ ts v.op ∧ (v.tenantID, v.op) ∈ keys) :
    Covered l ts keys s := by
  refine hr.invariant (fun tr s => (∀ v ∈ tr, v.tenantID ∈ ts v.op ∧ (v.tenantID, v.op) ∈ keys) →
    Covered l ts keys s) (fun _ => covered_start hl hratio hts c₀) ?_ huse
  rintro tr s v s' - ih ⟨hslack, h⟩ huse
  have hc := ih fun w hw => huse w (List.mem_append_left _ hw)
  obtain ⟨hmem, hkey⟩ := huse v (by simp)
  obtain ⟨hglobal, hbuckets⟩ := use_fits hl hc.global hc.buckets h
  exact ⟨hglobal, hbuckets, use_keys hkey hc.keys h,
    covers_use hl hratio hrefill hts hkeys hmem hc hslack h⟩

/-- A refused call found less than a token in its own bucket, or less than a token was held by
all tenants together. -/
lemma refused (hl : Sane l) (hratio : l.globalCapacity = l.capacity * 50)
    (hrefill : l.globalRefillPerSec = l.refillPerSec * 50) (hts : ∀ op, (ts op).card ≤ 50)
    (hkeys : keys.card < l.maxBuckets) (hmem : u.tenantID ∈ ts u.op) (hc : Covered l ts keys s)
    (h : l.use s u = some s') (hok : u.ok = false) :
    l.ownLevel s.tables u.now (u.tenantID, u.op) < 1 := by
  obtain ⟨hle, -, ⟨hempty, -, -⟩ | ⟨-, hres, -⟩⟩ := use_cases h
  · calc l.ownLevel s.tables u.now (u.tenantID, u.op)
        ≤ l.held s.tables u.now u.op (ts u.op) :=
          Finset.single_le_sum (f := fun x => l.ownLevel s.tables u.now (x, u.op))
            (fun x _ => ownLevel_nonneg hl hc u.now (x, u.op)) hmem
      _ ≤ l.globalLevel s.tables u.now u.op := covers_later hl hratio hrefill hts hc hle u.op
      _ < 1 := hempty
  · rw [takeTenant_fst (show (l.takeGlobal s.tables u.now u.op).2.buckets.size < l.maxBuckets
      from room hc hkeys), hok, ownLevel_takeGlobal] at hres
    simpa using hres.symm

end run

/-- Up to fifty tenants of an operation: nobody is refused while its own bucket holds a token,
in every run whose refused calls leave the operation's bucket with what the tenants hold. -/
theorem limiter_isolates {capacity : ℕ} {refill c₀ : ℚ} {ts : Bytes → Finset Bytes}
    {keys : Finset Key} {tr : List Use} {s s' : Idle} {u : Use} (hrefill : 0 ≤ refill)
    (hts : ∀ op, (ts op).card ≤ 50)
    (hkeys : keys.card < (RateLimiter.new capacity refill).maxBuckets)
    (huse : ∀ v ∈ tr ++ [u], v.tenantID ∈ ts v.op ∧ (v.tenantID, v.op) ∈ keys)
    (hr : Run (Guarded (fun s u => (RateLimiter.new capacity refill).hasSlack ts s u)
      (StepOf (RateLimiter.new capacity refill).use)) (Idle.start c₀) tr s)
    (h : (RateLimiter.new capacity refill).use s u = some s') (hok : u.ok = false) :
    (RateLimiter.new capacity refill).ownLevel s.tables u.now (u.tenantID, u.op) < 1 := by
  have hl := sane_new capacity hrefill
  have hc := covered_run hl rfl rfl hts hkeys hr fun v hv => huse v (List.mem_append_left _ hv)
  exact refused hl rfl rfl hts hkeys (huse u (by simp)).1 hc h hok

namespace Noisy

def op : Bytes := ascii "op"

def noisy : Bytes := ascii "noisy"

def quiet : Bytes := ascii "quiet"

/-- One token for the tenant, fifty for the operation. -/
def limiter : RateLimiter := .new 1 1

/-- The operation's tenants. -/
def tenants (o : Bytes) : Finset Bytes := if o = op then {noisy, quiet} else ∅

lemma tenants_card (o : Bytes) : (tenants o).card ≤ 50 := by
  unfold tenants
  split_ifs
  · decide +kernel
  · exact Nat.zero_le _

/-- One call that is let through and 49 that are refused, in the same instant. -/
def calls : List Use :=
  ⟨0, noisy, op, [], true⟩ :: List.replicate 49 ⟨0, noisy, op, [(noisy, op)], false⟩

/-- One call that is let through and one that is refused. -/
def few : List Use := [⟨0, noisy, op, [], true⟩, ⟨0, noisy, op, [(noisy, op)], false⟩]

def again : Use := ⟨0, noisy, op, [(noisy, op)], false⟩

def victim : Use := ⟨0, quiet, op, [(noisy, op)], false⟩

end Noisy

/-- Each call that its own bucket refuses has already paid a token of the operation's: fifty
calls of one tenant shut the other one out, whose bucket is still full. -/
theorem limiter_not_isolated :
    ¬ ∀ (capacity : ℕ) (refill c₀ : ℚ) (ts : Bytes → Finset Bytes) (keys : Finset Key)
      (tr : List Use) (s s' : Idle) (u : Use), 0 ≤ refill → (∀ op, (ts op).card ≤ 50) →
      keys.card < (RateLimiter.new capacity refill).maxBuckets →
      (∀ v ∈ tr ++ [u], v.tenantID ∈ ts v.op ∧ (v.tenantID, v.op) ∈ keys) →
      Run (StepOf (RateLimiter.new capacity refill).use) (Idle.start c₀) tr s →
      (RateLimiter.new capacity refill).use s u = some s' → u.ok = false →
      (RateLimiter.new capacity refill).ownLevel s.tables u.now (u.tenantID, u.op) < 1 := by
  intro h
  obtain ⟨s, hr, hs⟩ := Run.exists_of_foldlM_any Noisy.limiter.use
    (fun s => (Noisy.limiter.use s Noisy.victim).isSome &&
      1 ≤ Noisy.limiter.ownLevel s.tables 0 (Noisy.quiet, Noisy.op))
    (Idle.start 0) Noisy.calls (by decide +kernel)
  simp only [Bool.and_eq_true, decide_eq_true_eq] at hs
  obtain ⟨hsome, hfull⟩ := hs
  obtain ⟨s', hs'⟩ := Option.isSome_iff_exists.mp hsome
  exact (h 1 1 0 Noisy.tenants {(Noisy.noisy, Noisy.op), (Noisy.quiet, Noisy.op)}
    Noisy.calls s s' Noisy.victim zero_le_one Noisy.tenants_card (by decide +kernel)
    (by decide +kernel) hr hs' rfl).not_ge hfull

/-- A tenant's second refusal: its bucket is empty, the operation's has tokens to spare. -/
theorem limiter_isolates_noisy :
    ∃ s s', Noisy.limiter.use s Noisy.again = some s' ∧
      Noisy.limiter.ownLevel s.tables 0 (Noisy.noisy, Noisy.op) < 1 := by
  obtain ⟨s, hr, hsome⟩ := Run.exists_of_foldlM_any
    (fun s u => if Noisy.limiter.hasSlack Noisy.tenants s u then Noisy.limiter.use s u else none)
    (fun s => (Noisy.limiter.use s Noisy.again).isSome) (Idle.start 0) Noisy.few
    (by decide +kernel)
  obtain ⟨s', hs'⟩ := Option.isSome_iff_exists.mp hsome
  have hg : Run (Guarded (fun s u => Noisy.limiter.hasSlack Noisy.tenants s u)
      (StepOf Noisy.limiter.use)) (Idle.start 0) Noisy.few s := hr.guarded
  exact ⟨s, s', hs', @limiter_isolates 1 1 0 Noisy.tenants
    {(Noisy.noisy, Noisy.op), (Noisy.quiet, Noisy.op)} Noisy.few s s' Noisy.again zero_le_one
    Noisy.tenants_card (by decide +kernel) (by decide +kernel) hg hs' rfl⟩

end AiAuth.Limits
