import AiAuth.GuardRuns
import AiAuth.LimitLoad

/-!
# What the Guard can be made to do

A caller that holds a valid credential passes the gate with every call. The budget bounds how
often the Guard then does its work, over all tenants and, while the map has room, for each.
-/
namespace AiAuth.CryptoService
open Library Aead Limits

/-- The call was let through to the work of its handler. -/
def worked (x : Incoming × Answer) : Bool := x.1.gate.isOk && !x.2.limited

/-- Calls that are still to come, in order and none of them before the clock. The map stays within
the keys of the run. -/
structure Ahead (l : RateLimiter) (keys : Finset Key) (is : List Incoming) (clock : ℚ)
    (t : Tables) : Prop where
  start : ∀ i ∈ is, clock ≤ i.moment.now
  sorted : (is.map fun i => i.moment.now).Pairwise (· ≤ ·)
  key : ∀ i ∈ is, i.key ∈ keys
  kept : Kept l clock t
  known : ∀ k b, t.buckets.get k = some b → k ∈ keys

/-- The calls of a window that are still to come, and what was counted of it so far. -/
def Metered (l : RateLimiter) (keys : Finset Key) (T d : ℚ) (A : ℕ → Tables → Prop)
    (is : List Incoming) (n : ℕ) (s : State) : Prop :=
  ∃ clock, clock ≤ T + d ∧ Ahead l keys is clock s.tables ∧
    (∀ i ∈ is, T ≤ i.moment.now ∧ i.moment.now ≤ T + d) ∧ A n s.tables

section serve
variable {P : Webauthn.Platform} {C : Cipher} {hmac : Bytes → Bytes → Index} {g : Guard}
  {s : State} {i : Incoming} {is pre win : List Incoming} {clock T d bound : ℚ}
  {keys : Finset Key} {n : ℕ} {A : ℕ → Tables → Prop} {p : Incoming → Bool}

/-- The tables after a call are the limiter's, where the limiter was asked. -/
lemma serve_tables :
    ((g.serve P C hmac s i).2.tables = s.tables ∧ worked (i, (g.serve P C hmac s i).1) = false) ∨
      (g.serve P C hmac s i).2.tables =
          (g.limiter.allow s.tables i.moment.now i.moment.order i.tenantID i.call.op).2 ∧
        worked (i, (g.serve P C hmac s i).1) =
          (g.limiter.allow s.tables i.moment.now i.moment.order i.tenantID i.call.op).1 := by
  unfold worked
  cases hgate : i.gate with
  | error e => exact .inl ⟨by rw [serve_rejected hgate]; rfl, rfl⟩
  | ok u =>
    refine .inr ?_
    cases hallow :
        (g.limiter.allow s.tables i.moment.now i.moment.order i.tenantID i.call.op).1 with
    | true =>
      rw [serve_done hgate hallow]
      exact ⟨rfl, by rw [limited_work]; rfl⟩
    | false =>
      rw [serve_limited hgate hallow]
      exact ⟨rfl, by cases i.call <;> rfl⟩

namespace Ahead

lemma now (h : Ahead g.limiter keys (i :: is) clock s.tables) :
    Kept g.limiter i.moment.now s.tables :=
  h.kept.later (h.start i List.mem_cons_self)

lemma next (hl : Sane g.limiter) (h : Ahead g.limiter keys (i :: is) clock s.tables) :
    Ahead g.limiter keys is i.moment.now (g.serve P C hmac s i).2.tables := by
  have hsorted := List.pairwise_cons.mp h.sorted
  have hkeys := List.forall_mem_cons.mp h.key
  refine ⟨fun j hj => hsorted.1 _ (List.mem_map_of_mem hj), hsorted.2, hkeys.2, ?_, ?_⟩ <;>
    rcases @serve_tables P C hmac g s i with
      ⟨htables, -⟩ | ⟨htables, -⟩ <;> rw [htables]
  · exact h.now
  · exact h.now.allow hl
  · exact h.known
  · exact keys_allow hkeys.1 h.known

lemma after (hl : Sane g.limiter) (h : Ahead g.limiter keys (pre ++ win) clock s.tables) :
    ∃ clock', Ahead g.limiter keys win clock' (Machine.after (g.serve P C hmac) s pre).tables := by
  induction pre generalizing s clock with
  | nil => exact ⟨clock, h⟩
  | cons i pre ih => exact ih (h.next hl)

/-- A measure of the limiter's tables that goes up with every granted call of a kind bounds how
many calls of the kind are let through in a window. -/
lemma countP_le (hl : Sane g.limiter) (h : Ahead g.limiter keys win clock s.tables)
    (hclock : clock ≤ T + d) (hwin : ∀ i ∈ win, T ≤ i.moment.now ∧ i.moment.now ≤ T + d)
    (hstart : A 0 s.tables)
    (hallow : ∀ (i : Incoming) t n, T ≤ i.moment.now → Kept g.limiter i.moment.now t →
      (∀ k b, t.buckets.get k = some b → k ∈ keys) → A n t →
      ∃ n', n + (p i && (g.limiter.allow t i.moment.now i.moment.order i.tenantID
          i.call.op).1).toNat ≤ n' ∧
        A n' (g.limiter.allow t i.moment.now i.moment.order i.tenantID i.call.op).2)
    (hbound : ∀ t n clock, clock ≤ T + d → Kept g.limiter clock t → A n t → (n : ℚ) ≤ bound) :
    ((Machine.transcript (g.serve P C hmac) s win).countP fun x => p x.1 && worked x) ≤ bound := by
  suffices hcount : ∃ n, 0 + ((Machine.transcript (g.serve P C hmac) s win).countP fun x =>
      p x.1 && worked x) ≤ n ∧
      Metered g.limiter keys T d A [] n (Machine.after (g.serve P C hmac) s win) by
    obtain ⟨n, hn, clock', hclock', hahead, -, hA⟩ := hcount
    exact (Nat.cast_le.mpr (by simpa using hn)).trans (hbound _ _ _ hclock' hahead.kept hA)
  refine Machine.countP_transcript (I := Metered g.limiter keys T d A)
    ⟨clock, hclock, h, hwin, hstart⟩ ?_
  rintro i is n s ⟨clock, -, h, hwin, hA⟩
  obtain ⟨hi, his⟩ := List.forall_mem_cons.mp hwin
  have hnext : Ahead g.limiter keys is i.moment.now (g.serve P C hmac s i).2.tables := h.next hl
  rcases @serve_tables P C hmac g s i with
    ⟨htables, hworked⟩ | ⟨htables, hworked⟩
  · refine ⟨n, by simp [hworked], _, hi.2, hnext, his, ?_⟩
    rw [htables]
    exact hA
  · obtain ⟨n', hle, hA'⟩ := hallow i s.tables n hi.1 h.now h.known hA
    refine ⟨n', by rw [hworked]; exact hle, _, hi.2, hnext, his, ?_⟩
    rw [htables]
    exact hA'

end Ahead

/-- In every window of `d` seconds the Guard does the work of an operation at most `6000 + 1000 d`
times, whatever is asked, and while fewer than ten thousand pairs of a tenant and an operation
have been seen, at most `120 + 20 d` times for each of them. -/
theorem release_budget {provider : SoftwareProvider} {indexKey kek : KeyHandle}
    (hsorted : ((pre ++ win).map fun i => i.moment.now).Pairwise (· ≤ ·)) (hd : 0 ≤ d)
    (hwin : ∀ i ∈ win, T ≤ i.moment.now ∧ i.moment.now ≤ T + d) :
    (∀ op, (((Machine.transcript ((Guard.new provider indexKey kek).serve P C hmac)
        (Machine.after ((Guard.new provider indexKey kek).serve P C hmac) .start pre) win).countP
          fun x => x.1.call.op = op && worked x : ℕ) : ℚ) ≤ 6000 + 1000 * d) ∧
      (((pre ++ win).map Incoming.key).toFinset.card < 10000 →
        ∀ k, (((Machine.transcript ((Guard.new provider indexKey kek).serve P C hmac)
          (Machine.after ((Guard.new provider indexKey kek).serve P C hmac) .start pre) win).countP
            fun x => x.1.key = k && worked x : ℕ) : ℚ) ≤ 120 + 20 * d) := by
  have hl : Sane (Guard.new provider indexKey kek).limiter := sane_new 120 (by norm_num)
  generalize hkeys : ((pre ++ win).map Incoming.key).toFinset = keys
  have hknown : ∀ i ∈ pre ++ win, i.key ∈ keys := fun i hi =>
    hkeys ▸ List.mem_toFinset.mpr (List.mem_map_of_mem hi)
  have hstart : ∃ clock, ∀ i ∈ pre ++ win, clock ≤ i.moment.now := by
    cases hrun : pre ++ win with
    | nil => exact ⟨0, by simp⟩
    | cons i is =>
      rw [hrun] at hsorted
      exact ⟨i.moment.now, List.forall_mem_cons.mpr ⟨le_rfl, fun j hj =>
        (List.pairwise_cons.mp hsorted).1 _ (List.mem_map_of_mem hj)⟩⟩
  obtain ⟨clock₀, hclock₀⟩ := hstart
  have hahead₀ : Ahead (Guard.new provider indexKey kek).limiter keys (pre ++ win) clock₀
      State.start.tables :=
    ⟨hclock₀, hsorted, hknown, kept_empty, fun k b hb => by simp [State.start, Tables.empty] at hb⟩
  obtain ⟨clock₁, hahead⟩ : ∃ clock, Ahead (Guard.new provider indexKey kek).limiter keys win clock
      (Machine.after ((Guard.new provider indexKey kek).serve P C hmac) .start pre).tables :=
    hahead₀.after hl
  cases win with
  | nil =>
    have hbudget : 0 ≤ 6000 + 1000 * d ∧ 0 ≤ 120 + 20 * d := by constructor <;> linarith
    exact ⟨fun _ => by simpa [Machine.transcript] using hbudget.1,
      fun _ _ => by simpa [Machine.transcript] using hbudget.2⟩
  | cons i win =>
    have hclock : clock₁ ≤ T + d :=
      (hahead.start i List.mem_cons_self).trans (hwin i List.mem_cons_self).2
    have hglobal : (Guard.new provider indexKey kek).limiter.globalCapacity +
        (Guard.new provider indexKey kek).limiter.globalRefillPerSec * d = 6000 + 1000 * d := by
      norm_num [Guard.new, RateLimiter.new]
    have hown : (Guard.new provider indexKey kek).limiter.capacity +
        (Guard.new provider indexKey kek).limiter.refillPerSec * d = 120 + 20 * d := by
      norm_num [Guard.new, RateLimiter.new]
    refine ⟨fun op => hglobal ▸ hahead.countP_le hl hclock hwin (p := fun i => i.call.op = op)
        (A := fun n t => Accounted _ _ T (t.global.get op) n)
        (accounted_start (hahead.kept.global op))
        (fun i t n hT hkept _ hA => accounted_allow hl hkept hT hA)
        (fun t n clock hle hkept hA => accounted_le hA hl.globalCapacity hl.globalRefill hd
          (hkept.global op) hle),
      fun hroom k => hown ▸ hahead.countP_le hl hclock hwin (p := fun i => i.key = k)
        (A := fun n t => Accounted _ _ T (t.buckets.get k) n)
        (accounted_start (hahead.kept.buckets k))
        (fun i t n hT hkept hmap hA => accounted_allow_own hl hkept
          ((Dict.size_le_card hmap).trans_lt hroom) hT hA)
        (fun t n clock hle hkept hA => accounted_le hA hl.capacity hl.refill hd
          (hkept.buckets k) hle)⟩

end serve

/-- The budget of a row that is read by two tenants. -/
theorem release_budget_row :
    (((Machine.transcript (Row.guard.serve Row.platform Row.cipher Row.hmac)
      (Machine.after (Row.guard.serve Row.platform Row.cipher Row.hmac) .start [])
        Row.calls).countP fun x => x.1.call.op = ascii "decrypt_field" && worked x : ℕ) : ℚ) ≤
      6000 + 1000 * 2 :=
  (release_budget (T := 0) (by decide +kernel) (by norm_num) (by decide +kernel)).1
    (ascii "decrypt_field")

end AiAuth.CryptoService
