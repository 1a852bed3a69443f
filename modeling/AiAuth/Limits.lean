import AiAuth.Library.Bytes
import AiAuth.Library.Dict
import AiAuth.Library.TokenBucket
import Mathlib.Data.Rat.Defs
import Mathlib.Algebra.Order.Field.Rat

/-!
# The rate limiter

A bucket for each operation across all tenants, and one for each tenant and operation.
Instants are rational numbers of seconds, and so are the token counts.
-/
namespace AiAuth.Limits
open Library TokenBucket

abbrev Key := Bytes × Bytes

structure RateLimiter where
  capacity : ℚ
  refillPerSec : ℚ
  globalCapacity : ℚ
  globalRefillPerSec : ℚ
  maxBuckets : ℕ

/-- The two maps behind the two locks. -/
structure Tables where
  buckets : Dict Key (Bucket ℚ)
  global : Dict Bytes (Bucket ℚ)

def Tables.empty : Tables := ⟨Dict.empty, Dict.empty⟩

namespace RateLimiter

/-- The global budget is fifty times one tenant's. -/
def new (capacity : ℕ) (refillPerSec : ℚ) : RateLimiter where
  capacity := capacity
  refillPerSec := refillPerSec
  globalCapacity := capacity * 50
  globalRefillPerSec := refillPerSec * 50
  maxBuckets := 10000

/-- Refill for the elapsed time and take one token if available. -/
def take (bucket : Bucket ℚ) (now capacity refill : ℚ) : Bool × Bucket ℚ :=
  TokenBucket.take capacity refill bucket now

/-- The section under the global lock. -/
def takeGlobal (l : RateLimiter) (t : Tables) (now : ℚ) (op : Bytes) : Bool × Tables :=
  let b := (t.global.get op).getD ⟨l.globalCapacity, now⟩
  let res := take b now l.globalCapacity l.globalRefillPerSec
  (res.1, { t with global := t.global.set op res.2 })

/-- Drop the buckets that are full again and, if that is not enough, the least recently
used down to half. `order` is the order in which the map is iterated. -/
def evict (l : RateLimiter) (buckets : Dict Key (Bucket ℚ)) (now : ℚ) (order : List Key) :
    Dict Key (Bucket ℚ) :=
  if l.maxBuckets ≤ buckets.size then
    let kept := buckets.retain fun _ b =>
      b.tokens + max 0 (now - b.last) * l.refillPerSec < l.capacity
    if l.maxBuckets ≤ kept.size then
      let target := l.maxBuckets / 2
      let keys := order.filterMap fun k => (kept.get k).map fun b => (b.last, k)
      let oldest := (keys.mergeSort fun x y => x.1 ≤ y.1).take (kept.size - target)
      oldest.foldl (fun d x => d.remove x.2) kept
    else kept
  else buckets

/-- The section under the lock of the tenants' buckets. -/
def takeTenant (l : RateLimiter) (t : Tables) (now : ℚ) (order : List Key) (key : Key) :
    Bool × Tables :=
  let buckets := l.evict t.buckets now order
  let b := (buckets.get key).getD ⟨l.capacity, now⟩
  let res := take b now l.capacity l.refillPerSec
  (res.1, { t with buckets := buckets.set key res.2 })

/-- One call from start to end. -/
def allow (l : RateLimiter) (t : Tables) (now : ℚ) (order : List Key) (tenantID op : Bytes) :
    Bool × Tables :=
  match l.takeGlobal t now op with
  | (false, t) => (false, t)
  | (true, t) => l.takeTenant t now order (tenantID, op)

/-- Below its bound the map is not touched. -/
lemma evict_of_lt {l : RateLimiter} {buckets : Dict Key (Bucket ℚ)} {now : ℚ} {order : List Key}
    (h : buckets.size < l.maxBuckets) : l.evict buckets now order = buckets :=
  if_neg (not_le.mpr h)

/-- A bucket that is still there after an eviction is unchanged. -/
lemma get_of_evict {l : RateLimiter} {buckets : Dict Key (Bucket ℚ)} {now : ℚ} {order : List Key}
    {k : Key} {b : Bucket ℚ} (h : (l.evict buckets now order).get k = some b) :
    buckets.get k = some b := by
  have hfold : ∀ (xs : List (ℚ × Key)) (d : Dict Key (Bucket ℚ)),
      (xs.foldl (fun d x => d.remove x.2) d).get k = some b → d.get k = some b := by
    intro xs
    induction xs with
    | nil => exact fun d hd => hd
    | cons x xs ih => exact fun d hd => Dict.get_of_remove (ih _ hd)
  unfold evict at h
  dsimp only at h
  split_ifs at h
  · exact Dict.get_of_retain (hfold _ _ h)
  · exact Dict.get_of_retain h
  · exact h

end RateLimiter
end AiAuth.Limits
