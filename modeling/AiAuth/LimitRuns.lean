import AiAuth.Library.Runs
import AiAuth.Limits

/-!
# Concurrent rate limiting

Any number of calls run at once. Each reads the clock, then takes from the operation's
bucket under one lock, then from the tenant's bucket under the other. A call acts on the
reading it made, however old that is by then.
-/
namespace AiAuth.Limits
open Library TokenBucket

/-- A call under way: its reading, and whether the operation's bucket let it pass. -/
structure Call where
  reading : ℚ
  key : Key
  passed : Bool
  deriving DecidableEq

/-- A section of call `n` at time `t`. The map's iteration order is the environment's. -/
inductive Event
  | read (n : ℕ) (t : ℚ) (key : Key)
  | global (n : ℕ) (t : ℚ) (key : Key) (ok : Bool)
  | tenant (n : ℕ) (t : ℚ) (key : Key) (order : List Key) (ok : Bool)

namespace Event

def time : Event → ℚ
  | read _ t _ => t
  | global _ t _ _ => t
  | tenant _ t _ _ _ => t

/-- A token was taken from the bucket of the operation. -/
def tookGlobal (op : Bytes) : Event → Bool
  | global _ _ key ok => key.2 = op && ok
  | _ => false

/-- A call for the tenant and operation returned true. -/
def granted (k : Key) : Event → Bool
  | tenant _ _ key _ ok => key = k && ok
  | _ => false

end Event

structure State where
  clock : ℚ
  tables : Tables
  calls : Dict ℕ Call

def State.start (clock : ℚ) : State := ⟨clock, .empty, Dict.empty⟩

def step (l : RateLimiter) (s : State) : Event → Option State
  | .read n t key =>
    if s.clock ≤ t ∧ s.calls.get n = none then
      some { s with clock := t, calls := s.calls.set n ⟨t, key, false⟩ }
    else none
  | .global n t key ok =>
    match s.calls.get n with
    | none => none
    | some c =>
      let res := l.takeGlobal s.tables c.reading key.2
      if s.clock ≤ t ∧ c.key = key ∧ c.passed = false ∧ res.1 = ok then
        some
          { clock := t
            tables := res.2
            calls := if ok then s.calls.set n { c with passed := true } else s.calls.remove n }
      else none
  | .tenant n t key order ok =>
    match s.calls.get n with
    | none => none
    | some c =>
      let res := l.takeTenant s.tables c.reading order key
      if s.clock ≤ t ∧ c.key = key ∧ c.passed = true ∧ order.Perm s.tables.buckets.keys ∧
          res.1 = ok then
        some { clock := t, tables := res.2, calls := s.calls.remove n }
      else none

/-! ## What every run keeps -/

/-- A bucket of either map: no debt, no more than its capacity, no take in the future. -/
structure Fits (cap clock : ℚ) (b : Bucket ℚ) : Prop where
  nonneg : 0 ≤ b.tokens
  le_cap : b.tokens ≤ cap
  last_le : b.last ≤ clock

structure Inv (l : RateLimiter) (s : State) : Prop where
  global : ∀ op b, s.tables.global.get op = some b → Fits l.globalCapacity s.clock b
  buckets : ∀ k b, s.tables.buckets.get k = some b → Fits l.capacity s.clock b
  reading : ∀ n c, s.calls.get n = some c → c.reading ≤ s.clock

/-- No parameter of the limiter is negative. -/
structure Sane (l : RateLimiter) : Prop where
  capacity : 0 ≤ l.capacity
  refill : 0 ≤ l.refillPerSec
  globalCapacity : 0 ≤ l.globalCapacity
  globalRefill : 0 ≤ l.globalRefillPerSec

lemma sane_new (capacity : ℕ) {refill : ℚ} (h : 0 ≤ refill) : Sane (.new capacity refill) where
  capacity := Nat.cast_nonneg capacity
  refill := h
  globalCapacity := mul_nonneg (Nat.cast_nonneg capacity) (by norm_num)
  globalRefill := mul_nonneg h (by norm_num)

section inv
variable {l : RateLimiter} {s s' : State} {e : Event}

lemma Fits.mono {cap clock clock' : ℚ} {b : Bucket ℚ} (h : Fits cap clock b)
    (hle : clock ≤ clock') : Fits cap clock' b := ⟨h.nonneg, h.le_cap, h.last_le.trans hle⟩

/-- The bucket a take starts from: the one there is, or a full one. -/
lemma fits_getD {cap clock now : ℚ} {o : Option (Bucket ℚ)} (hcap : 0 ≤ cap) (hnow : now ≤ clock)
    (h : ∀ b, o = some b → Fits cap clock b) : Fits cap clock (o.getD ⟨cap, now⟩) := by
  cases o with
  | none => exact ⟨hcap, le_rfl, hnow⟩
  | some b => exact h b rfl

lemma fits_take {cap rate clock now : ℚ} {b : Bucket ℚ} (hcap : 0 ≤ cap) (hrate : 0 ≤ rate)
    (hnow : now ≤ clock) (h : Fits cap clock b) :
    Fits cap clock (RateLimiter.take b now cap rate).2 :=
  ⟨take_tokens_nonneg hcap hrate h.nonneg, take_tokens_le, by
    rw [RateLimiter.take, take_last]
    exact hnow⟩

/-- The takes of either map keep what fits. -/
lemma fits_takeGlobal (hl : Sane l) {t : Tables} {clock now : ℚ} {op : Bytes} (hnow : now ≤ clock)
    (h : ∀ op b, t.global.get op = some b → Fits l.globalCapacity clock b) (op' : Bytes)
    (b : Bucket ℚ) (hb : (l.takeGlobal t now op).2.global.get op' = some b) :
    Fits l.globalCapacity clock b := by
  dsimp only [RateLimiter.takeGlobal] at hb
  rcases Dict.get_of_set hb with ⟨-, rfl⟩ | ⟨-, hb⟩
  · exact fits_take hl.globalCapacity hl.globalRefill hnow
      (fits_getD hl.globalCapacity hnow (h op))
  · exact h op' b hb

lemma fits_takeTenant (hl : Sane l) {t : Tables} {clock now : ℚ} {order : List Key} {key : Key}
    (hnow : now ≤ clock) (h : ∀ k b, t.buckets.get k = some b → Fits l.capacity clock b) (k : Key)
    (b : Bucket ℚ) (hb : (l.takeTenant t now order key).2.buckets.get k = some b) :
    Fits l.capacity clock b := by
  have hkept : ∀ k b, (l.evict t.buckets now order).get k = some b → Fits l.capacity clock b :=
    fun k b hb => h k b (RateLimiter.get_of_evict hb)
  dsimp only [RateLimiter.takeTenant] at hb
  rcases Dict.get_of_set hb with ⟨-, rfl⟩ | ⟨-, hb⟩
  · exact fits_take hl.capacity hl.refill hnow (fits_getD hl.capacity hnow (hkept key))
  · exact hkept k b hb

/-- What a step can do, with its guards. -/
lemma step_cases (h : step l s e = some s') :
    (∃ n t key, e = .read n t key ∧ s.clock ≤ t ∧
      s' = { s with clock := t, calls := s.calls.set n ⟨t, key, false⟩ }) ∨
    (∃ n t key c, e = .global n t key (l.takeGlobal s.tables c.reading key.2).1 ∧ s.clock ≤ t ∧
      s.calls.get n = some c ∧ s'.clock = t ∧
      s'.tables = (l.takeGlobal s.tables c.reading key.2).2 ∧
      ∀ m d, s'.calls.get m = some d → ∃ d', s.calls.get m = some d' ∧ d.reading = d'.reading) ∨
    (∃ n t key order c, e = .tenant n t key order (l.takeTenant s.tables c.reading order key).1 ∧
      s.clock ≤ t ∧ s.calls.get n = some c ∧ s'.clock = t ∧
      s'.tables = (l.takeTenant s.tables c.reading order key).2 ∧
      ∀ m d, s'.calls.get m = some d → ∃ d', s.calls.get m = some d' ∧ d.reading = d'.reading) := by
  cases e with
  | read n t key =>
    simp only [step] at h
    split_ifs at h with hg
    exact .inl ⟨n, t, key, rfl, hg.1, (Option.some.inj h).symm⟩
  | global n t key ok =>
    simp only [step] at h
    split at h
    · cases h
    next c hc =>
      by_cases hg : s.clock ≤ t ∧ c.key = key ∧ c.passed = false ∧
          (l.takeGlobal s.tables c.reading key.2).1 = ok
      · rw [if_pos hg] at h
        obtain rfl := Option.some.inj h
        refine .inr (.inl ⟨n, t, key, c, by rw [hg.2.2.2], hg.1, hc, rfl, rfl, fun m d hd => ?_⟩)
        dsimp only at hd
        split_ifs at hd
        · rcases Dict.get_of_set hd with ⟨rfl, rfl⟩ | ⟨-, hd⟩
          · exact ⟨c, hc, rfl⟩
          · exact ⟨d, hd, rfl⟩
        · exact ⟨d, Dict.get_of_remove hd, rfl⟩
      · rw [if_neg hg] at h
        cases h
  | tenant n t key order ok =>
    simp only [step] at h
    split at h
    · cases h
    next c hc =>
      split_ifs at h with hg
      obtain rfl := Option.some.inj h
      exact .inr (.inr ⟨n, t, key, order, c, by rw [hg.2.2.2.2], hg.1, hc, rfl, rfl,
        fun m d hd => ⟨d, Dict.get_of_remove hd, rfl⟩⟩)

lemma step_clock (h : step l s e = some s') : s.clock ≤ s'.clock ∧ s'.clock = e.time := by
  rcases step_cases h with ⟨n, t, key, rfl, ht, rfl⟩ | ⟨n, t, key, c, rfl, ht, -, hc, -⟩ |
    ⟨n, t, key, order, c, rfl, ht, -, hc, -⟩
  · exact ⟨ht, rfl⟩
  · exact ⟨hc ▸ ht, hc⟩
  · exact ⟨hc ▸ ht, hc⟩

lemma inv_step (hl : Sane l) (hi : Inv l s) (h : step l s e = some s') : Inv l s' := by
  have hle := (step_clock h).1
  rcases step_cases h with ⟨n, t, key, rfl, ht, rfl⟩ |
    ⟨n, t, key, c, rfl, ht, hc, hclock, htab, hcalls⟩ |
    ⟨n, t, key, order, c, rfl, ht, hc, hclock, htab, hcalls⟩
  · refine ⟨fun op b hb => (hi.global op b hb).mono ht, fun k b hb => (hi.buckets k b hb).mono ht,
      fun m d hd => ?_⟩
    rcases Dict.get_of_set hd with ⟨-, rfl⟩ | ⟨-, hd⟩
    · exact le_rfl
    · exact (hi.reading m d hd).trans ht
  · have hread : c.reading ≤ s'.clock := (hi.reading n c hc).trans hle
    refine ⟨fun op b hb => ?_, fun k b hb => ?_, fun m d hd => ?_⟩
    · rw [htab] at hb
      exact fits_takeGlobal hl hread (fun op b hb => (hi.global op b hb).mono hle) op b hb
    · rw [htab] at hb
      exact (hi.buckets k b hb).mono hle
    · obtain ⟨d', hd', hsame⟩ := hcalls m d hd
      exact hsame ▸ (hi.reading m d' hd').trans hle
  · have hread : c.reading ≤ s'.clock := (hi.reading n c hc).trans hle
    refine ⟨fun op b hb => ?_, fun k b hb => ?_, fun m d hd => ?_⟩
    · rw [htab] at hb
      exact (hi.global op b hb).mono hle
    · rw [htab] at hb
      exact fits_takeTenant hl hread (fun k b hb => (hi.buckets k b hb).mono hle) k b hb
    · obtain ⟨d', hd', hsame⟩ := hcalls m d hd
      exact hsame ▸ (hi.reading m d' hd').trans hle

end inv
/-! ## Windows -/

/-- Takes from the operation's bucket act on readings that come neither before the window
opened nor before the bucket's last one. -/
def globalInOrder (T : ℚ) (op : Bytes) (s : State) : Event → Bool
  | .global n _ key _ => key.2 ≠ op || (s.calls.get n).all fun c =>
    T ≤ c.reading && (s.tables.global.get op).all fun b => b.last ≤ c.reading
  | _ => true

/-- The same for one tenant's bucket. -/
def tenantInOrder (T : ℚ) (k : Key) (s : State) : Event → Bool
  | .tenant n _ key _ _ => key ≠ k || (s.calls.get n).all fun c =>
    T ≤ c.reading && (s.tables.buckets.get k).all fun b => b.last ≤ c.reading
  | _ => true

/-- No step drops the bucket. -/
def notEvicted (l : RateLimiter) (k : Key) (s : State) : Event → Bool
  | .tenant n _ _ order _ => (s.calls.get n).all fun c =>
    (l.evict s.tables.buckets c.reading order).get k = s.tables.buckets.get k
  | _ => true

/-- The bucket accounts for `k` takes since the window opened at `T`. -/
def Accounted (cap rate T : ℚ) (o : Option (Bucket ℚ)) (k : ℕ) : Prop :=
  (o = none ∧ k = 0) ∨ ∃ b, o = some b ∧ Within cap rate T b (k : ℚ)

section window
variable {l : RateLimiter} {s s' : State} {e : Event} {tr : List Event} {T d : ℚ}

lemma accounted_start {cap rate clock : ℚ} {o : Option (Bucket ℚ)}
    (h : ∀ b, o = some b → Fits cap clock b) : Accounted cap rate T o 0 := by
  cases o with
  | none => exact .inl ⟨rfl, rfl⟩
  | some b => exact .inr ⟨b, rfl, .inl ⟨Nat.cast_zero, (h b rfl).le_cap⟩⟩

lemma accounted_take {cap rate now : ℚ} {o : Option (Bucket ℚ)} {k : ℕ} (hrate : 0 ≤ rate)
    (h : Accounted cap rate T o k) (hT : T ≤ now) (hlast : ∀ b, o = some b → b.last ≤ now) :
    Accounted cap rate T (some (RateLimiter.take (o.getD ⟨cap, now⟩) now cap rate).2)
      (k + (RateLimiter.take (o.getD ⟨cap, now⟩) now cap rate).1.toNat) := by
  have hcost : ∀ ok : Bool, ((k + ok.toNat : ℕ) : ℚ) = k + cost ok := by
    intro ok
    cases ok <;> simp [cost]
  refine .inr ⟨_, rfl, ?_⟩
  rw [hcost]
  rcases h with ⟨rfl, rfl⟩ | ⟨b, rfl, hb⟩
  · exact Within.take (.inl ⟨Nat.cast_zero, le_rfl⟩) hrate hT le_rfl
  · exact hb.take hrate hT (hlast b rfl)

/-- What the bucket accounts for is within the budget of the window. -/
lemma accounted_le {cap rate clock : ℚ} {o : Option (Bucket ℚ)} {k : ℕ}
    (h : Accounted cap rate T o k) (hcap : 0 ≤ cap) (hrate : 0 ≤ rate) (hd : 0 ≤ d)
    (hfits : ∀ b, o = some b → Fits cap clock b) (hclock : clock ≤ T + d) :
    (k : ℚ) ≤ cap + rate * d := by
  rcases h with ⟨-, rfl⟩ | ⟨b, hb, hk⟩
  · have hbudget : 0 ≤ rate * d := mul_nonneg hrate hd
    rw [Nat.cast_zero]
    linarith
  · rw [mul_comm rate d]
    exact hk.le hcap hrate hd (hfits b hb).nonneg ((hfits b hb).last_le.trans hclock)

lemma accounted_global (hl : Sane l) {op : Bytes} {k : ℕ} (hg : globalInOrder T op s e = true)
    (h : step l s e = some s')
    (hk : Accounted l.globalCapacity l.globalRefillPerSec T (s.tables.global.get op) k) :
    Accounted l.globalCapacity l.globalRefillPerSec T (s'.tables.global.get op)
      (k + (e.tookGlobal op).toNat) := by
  rcases step_cases h with ⟨n, t, key, rfl, -, rfl⟩ | ⟨n, t, key, c, rfl, -, hc, -, htab, -⟩ |
    ⟨n, t, key, order, c, rfl, -, -, -, htab, -⟩
  · exact hk
  · rw [htab, RateLimiter.takeGlobal]
    dsimp only
    rw [Dict.get_set]
    by_cases hop : key.2 = op
    · rw [if_pos hop.symm, hop]
      simp only [globalInOrder, hop, ne_eq, not_true_eq_false, decide_false, Bool.false_or, hc,
        Option.all_some, Bool.and_eq_true, decide_eq_true_eq, Option.all_eq_true] at hg
      simpa [Event.tookGlobal, hop] using accounted_take hl.globalRefill hk hg.1 hg.2
    · rw [if_neg (Ne.symm hop)]
      simpa [Event.tookGlobal, hop] using hk
  · rw [htab]
    exact hk

lemma accounted_tenant (hl : Sane l) {key : Key} {k : ℕ} (hg : tenantInOrder T key s e = true)
    (hkept : notEvicted l key s e = true) (h : step l s e = some s')
    (hk : Accounted l.capacity l.refillPerSec T (s.tables.buckets.get key) k) :
    Accounted l.capacity l.refillPerSec T (s'.tables.buckets.get key)
      (k + (e.granted key).toNat) := by
  rcases step_cases h with ⟨n, t, key', rfl, -, rfl⟩ | ⟨n, t, key', c, rfl, -, -, -, htab, -⟩ |
    ⟨n, t, key', order, c, rfl, -, hc, -, htab, -⟩
  · exact hk
  · rw [htab]
    exact hk
  · simp only [notEvicted, hc, Option.all_some, decide_eq_true_eq] at hkept
    rw [htab, RateLimiter.takeTenant]
    dsimp only
    rw [Dict.get_set]
    by_cases hkey : key' = key
    · subst hkey
      simp only [tenantInOrder, ne_eq, not_true_eq_false, decide_false, Bool.false_or, hc,
        Option.all_some, Bool.and_eq_true, decide_eq_true_eq, Option.all_eq_true] at hg
      rw [if_pos rfl, hkept]
      simpa [Event.granted, RateLimiter.takeTenant, hkept] using
        accounted_take hl.refill hk hg.1 hg.2
    · rw [if_neg (Ne.symm hkey), hkept]
      simpa [Event.granted, hkey] using hk

lemma inv_run (hl : Sane l) {c₀ : ℚ} (hr : Run (StepOf (step l)) (State.start c₀) tr s) :
    Inv l s := by
  refine hr.invariant (fun _ s => Inv l s) ?_ fun _ s e s' _ hi h => inv_step hl hi h
  exact ⟨by simp [State.start, Tables.empty], by simp [State.start, Tables.empty],
    by simp [State.start]⟩

lemma inv_window (hl : Sane l) (hi : Inv l s) (hr : Run (StepOf (step l)) s tr s') : Inv l s' :=
  hr.invariant (fun _ s => Inv l s) hi fun _ _ _ _ _ hi h => inv_step hl hi h

lemma clock_window (hwin : ∀ e ∈ tr, e.time ≤ T + d) (hr : Run (StepOf (step l)) s tr s') :
    tr = [] ∨ s'.clock ≤ T + d := by
  cases hr with
  | nil => exact .inl rfl
  | snoc _ h => exact .inr ((step_clock h).2 ▸ hwin _ (by simp))

/-- In a window whose takes from the operation's bucket come in order, they stay within the
operation's budget. -/
lemma global_ceiling (hl : Sane l) (hi : Inv l s) {op : Bytes} (hd : 0 ≤ d)
    (hwin : ∀ e ∈ tr, e.time ≤ T + d)
    (hr : Run (Guarded (fun s e => globalInOrder T op s e) (StepOf (step l))) s tr s') :
    (tr.countP (Event.tookGlobal op) : ℚ) ≤ l.globalCapacity + l.globalRefillPerSec * d := by
  have hacc : Accounted l.globalCapacity l.globalRefillPerSec T (s'.tables.global.get op)
      (tr.countP (Event.tookGlobal op)) := by
    refine hr.invariant (fun tr s => Accounted l.globalCapacity l.globalRefillPerSec T
      (s.tables.global.get op) (tr.countP (Event.tookGlobal op))) (accounted_start (hi.global op)) ?_
    rintro tr s e s' - hk ⟨hg, h⟩
    rw [countP_snoc]
    exact accounted_global hl hg h hk
  rcases clock_window hwin hr.of_guarded with rfl | hclock
  · have hbudget := mul_nonneg hl.globalRefill hd
    have hcap := hl.globalCapacity
    simp only [List.countP_nil, Nat.cast_zero]
    linarith
  · exact accounted_le hacc hl.globalCapacity hl.globalRefill hd
      ((inv_window hl hi hr.of_guarded).global op) hclock

lemma tenant_ceiling (hl : Sane l) (hi : Inv l s) {k : Key} (hd : 0 ≤ d)
    (hwin : ∀ e ∈ tr, e.time ≤ T + d)
    (hr : Run (Guarded (fun s e => tenantInOrder T k s e && notEvicted l k s e)
      (StepOf (step l))) s tr s') :
    (tr.countP (Event.granted k) : ℚ) ≤ l.capacity + l.refillPerSec * d := by
  have hacc : Accounted l.capacity l.refillPerSec T (s'.tables.buckets.get k)
      (tr.countP (Event.granted k)) := by
    refine hr.invariant (fun tr s => Accounted l.capacity l.refillPerSec T
      (s.tables.buckets.get k) (tr.countP (Event.granted k))) (accounted_start (hi.buckets k)) ?_
    rintro tr s e s' - hk ⟨hg, h⟩
    rw [Bool.and_eq_true] at hg
    rw [countP_snoc]
    exact accounted_tenant hl hg.1 hg.2 h hk
  rcases clock_window hwin hr.of_guarded with rfl | hclock
  · have hbudget := mul_nonneg hl.refill hd
    have hcap := hl.capacity
    simp only [List.countP_nil, Nat.cast_zero]
    linarith
  · exact accounted_le hacc hl.capacity hl.refill hd
      ((inv_window hl hi hr.of_guarded).buckets k) hclock

end window

/-- In every window of every run, what is taken from a bucket is at most its capacity and the
refill of the window, if the takes act on readings in order and from within the window. -/
theorem rate_ceiling {capacity : ℕ} {refill c₀ T d : ℚ} {pre win : List Event} {s s' : State}
    (hrefill : 0 ≤ refill) (hd : 0 ≤ d)
    (hpre : Run (StepOf (step (.new capacity refill))) (State.start c₀) pre s)
    (hwin : ∀ e ∈ win, T ≤ e.time ∧ e.time ≤ T + d) :
    (∀ op, Run (Guarded (fun s e => globalInOrder T op s e)
        (StepOf (step (.new capacity refill)))) s win s' →
      (win.countP (Event.tookGlobal op) : ℚ) ≤ capacity * 50 + refill * 50 * d) ∧
    ∀ k, Run (Guarded (fun s e => tenantInOrder T k s e &&
        notEvicted (.new capacity refill) k s e) (StepOf (step (.new capacity refill)))) s win s' →
      (win.countP (Event.granted k) : ℚ) ≤ capacity + refill * d := by
  have hl := sane_new capacity hrefill
  have hi := inv_run hl hpre
  exact ⟨fun op hr => global_ceiling hl hi hd (fun e he => (hwin e he).2) hr,
    fun k hr => tenant_ceiling hl hi hd (fun e he => (hwin e he).2) hr⟩

namespace Stale

def key : Key := (ascii "t1", ascii "decrypt_field")

/-- Two readings at the start of a second and two at its end, acted on in alternation. -/
def window : List Event :=
  [.read 0 0 key, .read 1 0 key, .read 2 1 key, .read 3 1 key,
    .global 0 1 key true, .tenant 0 1 key [] true,
    .global 2 1 key true, .tenant 2 1 key [key] true,
    .global 1 1 key true, .tenant 1 1 key [key] false,
    .global 3 1 key true, .tenant 3 1 key [key] true]

/-- The same second with its takes in order. -/
def ordered : List Event :=
  [.read 0 0 key, .global 0 0 key true, .tenant 0 0 key [] true,
    .read 1 0 key, .global 1 0 key true, .tenant 1 0 key [key] false,
    .read 2 1 key, .global 2 1 key true, .tenant 2 1 key [key] true]

end Stale

/-- With one token and one token per second, a second lets three calls through: a stale
reading sets the bucket's clock back, and the next reading refills the same second again. -/
theorem rate_ceiling_exceeded :
    ¬ ∀ (capacity : ℕ) (refill c₀ T d : ℚ) (pre win : List Event) (s s' : State),
      0 ≤ refill → 0 ≤ d →
      Run (StepOf (step (.new capacity refill))) (State.start c₀) pre s →
      (∀ e ∈ win, T ≤ e.time ∧ e.time ≤ T + d) →
      (∀ op, Run (StepOf (step (.new capacity refill))) s win s' →
        (win.countP (Event.tookGlobal op) : ℚ) ≤ capacity * 50 + refill * 50 * d) ∧
      ∀ k, Run (Guarded (fun s e => notEvicted (.new capacity refill) k s e)
          (StepOf (step (.new capacity refill)))) s win s' →
        (win.countP (Event.granted k) : ℚ) ≤ capacity + refill * d := by
  intro h
  obtain ⟨s, hr⟩ := Run.exists_of_foldlM_guarded
    (fun s e => notEvicted (.new 1 1) Stale.key s e) (step (.new 1 1)) (State.start 0) Stale.window
    (by decide +kernel)
  have hle := (h 1 1 0 0 1 [] Stale.window (State.start 0) s zero_le_one zero_le_one .nil
    (by decide +kernel)).2 Stale.key hr
  revert hle
  decide +kernel

theorem rate_ceiling_ordered :
    (Stale.ordered.countP (Event.granted Stale.key) : ℚ) ≤ (1 : ℕ) + 1 * 1 := by
  obtain ⟨s, hr⟩ := Run.exists_of_foldlM_guarded
    (fun s e => tenantInOrder 0 Stale.key s e && notEvicted (.new 1 1) Stale.key s e)
    (step (.new 1 1)) (State.start 0) Stale.ordered (by decide +kernel)
  exact (rate_ceiling zero_le_one zero_le_one .nil (by decide +kernel)).2 Stale.key hr

end AiAuth.Limits
