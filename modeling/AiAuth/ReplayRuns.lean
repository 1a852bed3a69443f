import AiAuth.Dpop
import AiAuth.Library.Runs

/-!
# One proof, one use

Any number of verifications run at once on one verifier. Each reads the clock and
makes its pure checks in one step and asks the replay cache in another.
-/
namespace AiAuth.Dpop
open Library

/-- A verification between its clock reading and the cache. -/
structure Call where
  readAt : ℤ
  proof : Opened
  deriving DecidableEq

/-- `out` is the signing input of a proof whose verification succeeds here. -/
inductive Event
  | read (n : ℕ) (now : ℤ) (proofJWT : Bytes) (e : Expected)
  | admitJTI (n : ℕ) (now : ℤ) (out : Option Bytes)

/-- `purgedAt` is the clock of the latest purge. -/
structure State where
  clock : ℤ
  seen : ReplayCache
  purgedAt : Option ℤ
  calls : Dict ℕ Call

namespace State

def start (clock : ℤ) (max : ℕ) : State := ⟨clock, .new max, none, Dict.empty⟩

def read (P : Platform) (s : State) (n : ℕ) (now : ℤ) (proofJWT : Bytes) (e : Expected) : State :=
  match inspect P now proofJWT e with
  | .error _ => { s with clock := now }
  | .ok o => { s with clock := now, calls := s.calls.set n ⟨now, o⟩ }

def admitJTI (s : State) (n : ℕ) (now : ℤ) (c : Call) : Bool × State :=
  let jti := c.proof.payload.jti
  let res := s.seen.admitJTI now jti (c.readAt + 2 * maxAge)
  (res.1,
    { clock := now
      seen := res.2
      purgedAt := if s.seen.purges jti then some now else s.purgedAt
      calls := s.calls.remove n })

/-- The signing input of the proof, if its verification succeeds here. -/
def outcome (s : State) (n : ℕ) (now : ℤ) (c : Call) : Option Bytes :=
  if (s.admitJTI n now c).1 then some c.proof.signing else none

end State

def step (P : Platform) (s : State) : Event → Option State
  | .read n now proofJWT e =>
    if s.clock ≤ now ∧ s.calls.get n = none then some (s.read P n now proofJWT e) else none
  | .admitJTI n now out =>
    match s.calls.get n with
    | none => none
    | some c =>
      if s.clock ≤ now ∧ out = s.outcome n now c then some (s.admitJTI n now c).2 else none

/-- The signing input of a success. -/
def Event.accepted : Event → Option Bytes
  | .admitJTI _ _ out => out
  | _ => none

/-- The end of a proof's freshness window. -/
def Opened.deadline (o : Opened) : ℤ := Time.ofUnix o.payload.iat + maxAge

/-- A verification reaches the cache before any purge later than its proof's window. -/
def onTime (s : State) : Event → Bool
  | .admitJTI n _ _ => (s.calls.get n).all fun c => s.purgedAt.all fun p => p ≤ c.proof.deadline
  | _ => true

/-- The proof is remembered for as long as it is fresh, or a purge came later than that. -/
def Spent (s : State) (o : Opened) : Prop :=
  (∃ exp, s.seen.items.get o.payload.jti = some exp ∧ o.deadline ≤ exp) ∨
    ∃ p, s.purgedAt = some p ∧ o.deadline < p

/-- What holds along a run: calls in flight have fresh opened proofs, accepted proofs are
spent, and no signing input was accepted twice. -/
structure Inv (P : Platform) (tr : List Event) (s : State) : Prop where
  purged_le : ∀ p, s.purgedAt = some p → p ≤ s.clock
  opened : ∀ n c, s.calls.get n = some c →
    (∃ jwt, openProof P jwt = .ok c.proof) ∧ isFresh c.readAt c.proof.payload = true
  spent : ∀ jwt o, openProof P jwt = .ok o → o.signing ∈ tr.filterMap Event.accepted → Spent s o
  once : (tr.filterMap Event.accepted).Nodup

section inv
variable {P : Platform} {s : State} {tr : List Event}

lemma inv_start (clock : ℤ) (max : ℕ) : Inv P [] (State.start clock max) where
  purged_le := by simp [State.start]
  opened := by simp [State.start]
  spent := by simp
  once := by simp

lemma inv_read {n : ℕ} {now : ℤ} {jwt : Bytes} {e : Expected} (hi : Inv P tr s)
    (hnow : s.clock ≤ now) : Inv P (tr ++ [.read n now jwt e]) (s.read P n now jwt e) := by
  have hacc : (tr ++ [Event.read n now jwt e]).filterMap Event.accepted =
      tr.filterMap Event.accepted := by simp [Event.accepted]
  unfold State.read
  split
  · exact ⟨fun p hp => (hi.purged_le p hp).trans hnow, hi.opened, hacc ▸ hi.spent, hacc ▸ hi.once⟩
  next o ho =>
    refine ⟨fun p hp => (hi.purged_le p hp).trans hnow, ?_, hacc ▸ hi.spent, hacc ▸ hi.once⟩
    intro m c hc
    rcases Dict.get_of_set hc with ⟨-, rfl⟩ | ⟨-, hc⟩
    · obtain ⟨hopen, hcheck⟩ := inspect_ok ho
      exact ⟨⟨jwt, hopen⟩, (checkProof_ok hcheck).2.2.1⟩
    · exact hi.opened m c hc

/-- Whatever the cache does, a spent proof stays spent. -/
lemma spent_admit {n : ℕ} {now : ℤ} {c : Call} {o : Opened} (hclock : s.clock ≤ now)
    (hpurged : ∀ p, s.purgedAt = some p → p ≤ s.clock) (hs : Spent s o) :
    Spent (s.admitJTI n now c).2 o := by
  rcases hs with ⟨exp, hget, hexp⟩ | ⟨p, hp, hlt⟩
  · by_cases hkeep : now ≤ exp ∨ s.seen.purges c.proof.payload.jti = false
    · exact .inl ⟨exp, ReplayCache.get_admit hget hkeep, hexp⟩
    · simp only [not_or, not_le, Bool.not_eq_false] at hkeep
      exact .inr ⟨now, by simp [State.admitJTI, hkeep.2], hexp.trans_lt hkeep.1⟩
  · cases hpur : s.seen.purges c.proof.payload.jti with
    | false => exact .inr ⟨p, by simp [State.admitJTI, hpur, hp], hlt⟩
    | true =>
      have hle : p ≤ now := (hpurged p hp).trans hclock
      exact .inr ⟨now, by simp [State.admitJTI, hpur], hlt.trans_le hle⟩

/-- A fresh proof that is admitted is spent from then on. -/
lemma spent_of_admitted {n : ℕ} {now : ℤ} {c : Call} (h : (s.admitJTI n now c).1 = true)
    (hfresh : isFresh c.readAt c.proof.payload = true) : Spent (s.admitJTI n now c).2 c.proof := by
  refine .inl ⟨c.readAt + 2 * maxAge, (ReplayCache.admit_true h).2, ?_⟩
  have := (fresh_iff.mp hfresh).2
  simp only [Opened.deadline]
  omega

lemma inv_admit {n : ℕ} {now : ℤ} {c : Call} (hi : Inv P tr s) (hnow : s.clock ≤ now)
    (hc : s.calls.get n = some c) (hguard : ∀ p, s.purgedAt = some p → p ≤ c.proof.deadline) :
    Inv P (tr ++ [.admitJTI n now (s.outcome n now c)]) (s.admitJTI n now c).2 := by
  obtain ⟨⟨jwt, hopen⟩, hfresh⟩ := hi.opened n c hc
  refine ⟨?_, ?_, ?_, ?_⟩
  · intro p hp
    simp only [State.admitJTI] at hp ⊢
    split_ifs at hp
    · exact (Option.some.inj hp).ge
    · exact (hi.purged_le p hp).trans hnow
  · intro m d hd
    exact hi.opened m d (Dict.get_of_remove hd)
  · intro jwt' o ho hmem
    rw [List.filterMap_append, List.mem_append] at hmem
    rcases hmem with hmem | hmem
    · exact spent_admit hnow hi.purged_le (hi.spent jwt' o ho hmem)
    · cases hok : (s.admitJTI n now c).1 with
      | false => simp [hok, Event.accepted, State.outcome] at hmem
      | true =>
        have hsign : o.signing = c.proof.signing := by
          simpa [hok, Event.accepted, State.outcome] using hmem
        rw [openProof_signing_inj ho hopen hsign]
        exact spent_of_admitted hok hfresh
  · refine nodup_filterMap_snoc hi.once fun m hm hmem => ?_
    cases hok : (s.admitJTI n now c).1 with
    | false => simp [hok, Event.accepted, State.outcome] at hm
    | true =>
      obtain rfl : c.proof.signing = m := by simpa [hok, Event.accepted, State.outcome] using hm
      rcases hi.spent jwt _ hopen hmem with ⟨exp, hget, -⟩ | ⟨p, hp, hlt⟩
      · rw [(ReplayCache.admit_true hok).1] at hget
        cases hget
      · exact absurd (hguard p hp) (not_le.mpr hlt)

end inv

/-- If every verification reaches the cache before a purge later than its proof's window,
no signing input is accepted twice. -/
theorem proof_accepted_once {P : Platform} {clock : ℤ} {max : ℕ} {tr : List Event} {s : State}
    (hr : Run (Guarded (fun s e => onTime s e) (StepOf (step P))) (State.start clock max) tr s) :
    (tr.filterMap Event.accepted).Nodup := by
  refine (hr.invariant (Inv P) (inv_start clock max) ?_).once
  rintro tr s (⟨n, now, jwt, e⟩ | ⟨n, now, out⟩) s' - hi ⟨hg, hs⟩
  · simp only [StepOf, step] at hs
    split_ifs at hs with hc
    obtain rfl := Option.some.inj hs
    exact inv_read hi hc.1
  · simp only [StepOf, step] at hs
    split at hs
    · cases hs
    next c hcall =>
      split_ifs at hs with hc
      obtain rfl := Option.some.inj hs
      obtain ⟨hnow, rfl⟩ := hc
      refine inv_admit hi hnow hcall fun p hp => ?_
      simpa [onTime, hcall, hp] using hg

/-! ## A flood of proofs

Honest clients fill the cache with fresh proofs, each its own identifier, while one
verification that has read the clock waits for the lock.
-/
namespace Flood

/-- The instant the early proofs name as their issue time. -/
def iat : ℤ := 1700000000

/-- Every payload is for one request and is named by its own text. The signatures of these
clients are all good. -/
def platform : Platform where
  sha256 m := m
  sign _ _ _ := some (0, 0)
  verify _ _ _ _ := true
  unmarshalHeader _ := some ⟨ascii "dpop+jwt", ascii "ES256", ascii "jwk"⟩
  unmarshalJWK _ := some ⟨ascii "EC", ascii "P-256", Base64.encode (bigEndian 32 P256.generator.x),
    Base64.encode (bigEndian 32 P256.generator.y), []⟩
  unmarshalPayload b := some ⟨b, ascii "POST", ascii "https://auth.example/token", iat, []⟩
  toFolding := .ascii

def expected : Expected := ⟨ascii "POST", ascii "https://auth.example/token", [], []⟩

def jti (i : ℕ) : Bytes := bigEndian 4 i

def signing (i : ℕ) : Bytes := Jws.signingInput (Base64.encode (ascii "h")) (Base64.encode (jti i))

def proof (i : ℕ) : Bytes := Jws.compact (signing i) (Jws.sigBytes 0 0)

def opened (i : ℕ) : Opened :=
  ⟨signing i, P256.generator,
    ⟨jti i, ascii "POST", ascii "https://auth.example/token", iat, []⟩⟩

lemma jti_ne_nil (i : ℕ) : jti i ≠ [] := fun h => by simpa [jti] using congrArg List.length h

lemma jti_ne {i j : ℕ} (hi : i < 256 ^ 4) (hj : j < 256 ^ 4) (h : i ≠ j) : jti i ≠ jti j :=
  fun heq => h (bigEndian_inj hi hj heq)

lemma openProof_proof (i : ℕ) : openProof platform (proof i) = .ok (opened i) :=
  openProof_compact (by decide +kernel) (jti_ne_nil i) (by decide +kernel) rfl
    (by decide +kernel) rfl (by simp [Jws.sigBytes]) rfl

/-- The ends of the window in which these proofs are fresh. -/
def early : ℤ := Time.ofUnix iat - maxAge
def late : ℤ := Time.ofUnix iat + maxAge

lemma inspect_proof (i : ℕ) (now : ℤ) (h : early ≤ now) (h' : now ≤ late) :
    inspect platform now (proof i) expected = .ok (opened i) := by
  have huri : sameURI platform (ascii "https://auth.example/token")
      (ascii "https://auth.example/token") = true := by decide +kernel
  have hfresh : isFresh now (opened i).payload = true := by
    rw [fresh_iff]
    simp only [early, late] at h h'
    exact ⟨h', by change Time.ofUnix iat ≤ _; omega⟩
  have hcheck : checkProof platform now expected (opened i) = .ok () := by
    unfold checkProof
    rw [hfresh]
    simp [opened, expected, platform.equalFold_refl, huri, jti_ne_nil]
  rw [inspect, openProof_proof]
  simp only [hcheck]

/-- A verification that runs undisturbed, with room in the cache for its proof. -/
lemma consume (s : State) (n i : ℕ) (now : ℤ) (hclock : s.clock ≤ now) (h : early ≤ now)
    (h' : now ≤ late) (hn : s.calls.get n = none) (hnew : s.seen.items.get (jti i) = none)
    (hroom : s.seen.items.size < s.seen.max) :
    ∃ s', Run (StepOf (step platform)) s
        [.read n now (proof i) expected, .admitJTI n now (some (signing i))] s' ∧
      s'.clock = now ∧ s'.seen.max = s.seen.max ∧
      s'.seen.items = s.seen.items.set (jti i) (now + 2 * maxAge) ∧
      ∀ m, s'.calls.get m = s.calls.get m := by
  let t : State := { s with clock := now, calls := s.calls.set n ⟨now, opened i⟩ }
  obtain ⟨hok, hitems, hmax⟩ := ReplayCache.admit_room now (now + 2 * maxAge) hnew hroom
  have hread : StepOf (step platform) s (.read n now (proof i) expected) t := by
    simp [StepOf, step, State.read, inspect_proof i now h h', hclock, hn, t]
  refine ⟨(t.admitJTI n now ⟨now, opened i⟩).2, (Run.single hread).snoc ?_, rfl, hmax, hitems,
    fun m => ?_⟩
  · have hout : t.outcome n now ⟨now, opened i⟩ = some (signing i) := if_pos hok
    simp [StepOf, step, hout, t]
  · change ((s.calls.set n _).remove n).get m = _
    rw [Dict.get_remove]
    split_ifs with hm
    · rw [hm, hn]
    · exact Dict.get_set_ne _ hm _

/-- `k` proofs are remembered, the first two for a little less long, and a second
verification of the first proof waits for the lock. -/
structure Filled (k : ℕ) (s : State) : Prop where
  clock : s.clock = late
  max : s.seen.max = ReplayCache.capacity
  size : s.seen.items.size = k
  first : s.seen.items.get (jti 0) = some late
  second : s.seen.items.get (jti 1) = some (late + 1)
  new : ∀ i, k ≤ i → i < 256 ^ 4 → s.seen.items.get (jti i) = none
  waiting : s.calls.get 0 = some ⟨late, opened 0⟩
  free : s.calls.get 1 = none

/-- The first proof is accepted, then the second, and the first comes back late. -/
lemma filled_two :
    ∃ tr s, Run (StepOf (step platform)) (State.start early ReplayCache.capacity) tr s ∧
      Filled 2 s ∧ signing 0 ∈ tr.filterMap Event.accepted := by
  obtain ⟨s₁, hr₁, hclock₁, hmax₁, hitems₁, hcalls₁⟩ := consume
    (.start early ReplayCache.capacity) 0 0 early le_rfl le_rfl (by decide) rfl rfl (by decide)
  have hsize₁ : s₁.seen.items.size = 1 := by
    rw [hitems₁]
    exact Dict.size_set_of_absent rfl _
  have hget₁ : s₁.seen.items.get (jti 1) = none := by
    rw [hitems₁, Dict.get_set_ne _ (jti_ne (by decide) (by decide) (by decide))]
    rfl
  have hcap₁ : s₁.seen.max = ReplayCache.capacity := hmax₁
  obtain ⟨s₂, hr₂, hclock₂, hmax₂, hitems₂, hcalls₂⟩ := consume s₁ 0 1 (early + 1)
    (by rw [hclock₁]; decide) (by decide) (by decide) (by rw [hcalls₁]; rfl)
    hget₁ (by rw [hsize₁, hcap₁]; decide)
  have hcalls : ∀ m, s₂.calls.get m = none := fun m => by rw [hcalls₂, hcalls₁]; rfl
  refine ⟨_ ++ [.read 0 late (proof 0) expected],
    { s₂ with clock := late, calls := s₂.calls.set 0 ⟨late, opened 0⟩ },
    (hr₁.append hr₂).snoc ?_, ⟨rfl, ?_, ?_, ?_, ?_, ?_, ?_, ?_⟩,
    by simp [Event.accepted]⟩
  · have hle : s₂.clock ≤ late := by rw [hclock₂]; decide
    simp [StepOf, step, State.read, inspect_proof 0 late (by decide) le_rfl, hle, hcalls]
  · exact hmax₂.trans hcap₁
  · change s₂.seen.items.size = 2
    rw [hitems₂, Dict.size_set_of_absent hget₁, hsize₁]
  · change s₂.seen.items.get (jti 0) = some late
    rw [hitems₂, Dict.get_set_ne _ (jti_ne (by decide) (by decide) (by decide)), hitems₁,
      Dict.get_set_self]
    decide
  · change s₂.seen.items.get (jti 1) = some (late + 1)
    rw [hitems₂, Dict.get_set_self]
    decide
  · intro i hi hlt
    change s₂.seen.items.get (jti i) = none
    rw [hitems₂, Dict.get_set_ne _ (jti_ne hlt (by decide) (by omega)), hitems₁,
      Dict.get_set_ne _ (jti_ne hlt (by decide) (by omega))]
    rfl
  · exact Dict.get_set_self _ _ _
  · exact (Dict.get_set_ne _ (by decide) _).trans (hcalls 1)

/-- One more honest proof. -/
lemma filled_succ {k : ℕ} {s : State} (hk : 2 ≤ k) (hlt : k < ReplayCache.capacity)
    (h : Filled k s) : ∃ tr s', Run (StepOf (step platform)) s tr s' ∧ Filled (k + 1) s' := by
  have hcap : ReplayCache.capacity < 256 ^ 4 := by decide
  have hnew := h.new k le_rfl (hlt.trans hcap)
  obtain ⟨s', hr, hclock, hmax, hitems, hcalls⟩ := consume s 1 k late
    h.clock.le (by decide) le_rfl h.free hnew (by rw [h.size, h.max]; exact hlt)
  refine ⟨_, s', hr, hclock, hmax.trans h.max, ?_, ?_, ?_, fun i hi hi' => ?_,
    (hcalls 0).trans h.waiting, (hcalls 1).trans h.free⟩
  · rw [hitems, Dict.size_set_of_absent hnew, h.size]
  · rw [hitems, Dict.get_set_ne _ (jti_ne (by decide) (hlt.trans hcap) (by omega)), h.first]
  · rw [hitems, Dict.get_set_ne _ (jti_ne (by decide) (hlt.trans hcap) (by omega)), h.second]
  · rw [hitems, Dict.get_set_ne _ (jti_ne hi' (hlt.trans hcap) (by omega)), h.new i (by omega) hi']

lemma filled_full :
    ∃ tr s, Run (StepOf (step platform)) (State.start early ReplayCache.capacity) tr s ∧
      Filled ReplayCache.capacity s ∧ signing 0 ∈ tr.filterMap Event.accepted := by
  have hall : ∀ k, 2 ≤ k → k ≤ ReplayCache.capacity →
      ∃ tr s, Run (StepOf (step platform)) (State.start early ReplayCache.capacity) tr s ∧
        Filled k s ∧ signing 0 ∈ tr.filterMap Event.accepted := by
    intro k hk
    induction k, hk using Nat.le_induction with
    | base => exact fun _ => filled_two
    | succ k hk ih =>
      intro hle
      obtain ⟨tr, s, hr, hf, hmem⟩ := ih (by omega)
      obtain ⟨tr', s', hr', hf'⟩ := filled_succ hk hle hf
      exact ⟨tr ++ tr', s', hr.append hr', hf', by simp [List.filterMap_append, hmem]⟩
  exact hall _ (by decide) le_rfl

/-- A purge one instant after the window of the first proof lets it through again. -/
lemma readmitted {s : State} (h : Filled ReplayCache.capacity s) :
    ∃ out s', Run (StepOf (step platform)) s
      [.read 1 late (proof ReplayCache.capacity) expected, .admitJTI 1 (late + 1) out,
        .admitJTI 0 (late + 2) (some (signing 0))] s' := by
  have hcap : ReplayCache.capacity < 256 ^ 4 := by decide
  let c : Call := ⟨late, opened ReplayCache.capacity⟩
  let s₁ : State := { s with clock := late, calls := s.calls.set 1 c }
  let s₂ : State := (s₁.admitJTI 1 (late + 1) c).2
  have hpurges : s.seen.purges (jti ReplayCache.capacity) = true := by
    simp [ReplayCache.purges, h.new _ le_rfl hcap, h.max, h.size]
  have hgone : s₂.seen.items.get (jti 0) = none :=
    ReplayCache.get_admit_expired hpurges h.first (by omega)
  have hkept : s₂.seen.items.get (jti 1) = some (late + 1) :=
    ReplayCache.get_admit h.second (.inl le_rfl)
  have hwait : s₂.calls.get 0 = some ⟨late, opened 0⟩ := by
    change ((s.calls.set 1 c).remove 1).get 0 = _
    rw [Dict.get_remove, if_neg (by decide), Dict.get_set_ne _ (by decide), h.waiting]
  have hout : s₂.outcome 0 (late + 2) ⟨late, opened 0⟩ = some (signing 0) :=
    if_pos (ReplayCache.admit_of_expired hgone hkept (by omega))
  have hread : StepOf (step platform) s
      (.read 1 late (proof ReplayCache.capacity) expected) s₁ := by
    simp [StepOf, step, State.read, inspect_proof ReplayCache.capacity late (by decide) le_rfl,
      h.clock, h.free, s₁, c]
  have hpurge : StepOf (step platform) s₁
      (.admitJTI 1 (late + 1) (s₁.outcome 1 (late + 1) c)) s₂ := by
    simp [StepOf, step, s₁, s₂]
  have hagain : StepOf (step platform) s₂ (.admitJTI 0 (late + 2) (some (signing 0)))
      (s₂.admitJTI 0 (late + 2) ⟨late, opened 0⟩).2 := by
    have hclock : s₂.clock ≤ late + 2 := by
      change late + 1 ≤ late + 2
      omega
    simp [StepOf, step, hwait, hout, hclock]
  exact ⟨_, _, ((Run.single hread).snoc hpurge).snoc hagain⟩

end Flood

/-- A proof is accepted a second time when its verification is overtaken by a purge. -/
theorem proof_accepted_twice :
    ¬ ∀ (P : Platform) (clock : ℤ) (tr : List Event) (s : State),
      Run (StepOf (step P)) (State.start clock ReplayCache.capacity) tr s →
      (tr.filterMap Event.accepted).Nodup := by
  intro hall
  obtain ⟨tr, s, hr, hf, hmem⟩ := Flood.filled_full
  obtain ⟨out, s', hr'⟩ := Flood.readmitted hf
  have hnodup := hall _ _ _ _ (hr.append hr')
  rw [List.filterMap_append, List.nodup_append] at hnodup
  exact hnodup.2.2 _ hmem (Flood.signing 0) (by simp [List.filterMap, Event.accepted]; grind) rfl

/-- A replay at the far end of the window, with no purge in between, is refused. -/
theorem proof_accepted_once_at_deadline :
    ([Event.read 0 Flood.early (Flood.proof 0) Flood.expected,
      .admitJTI 0 Flood.early (some (Flood.signing 0)),
      .read 1 Flood.late (Flood.proof 0) Flood.expected,
      .admitJTI 1 (Flood.late + 1) none].filterMap Event.accepted).Nodup := by
  obtain ⟨s, hr⟩ := Run.exists_of_foldlM_guarded (fun s e => onTime s e) (step Flood.platform)
    (State.start Flood.early ReplayCache.capacity)
    [.read 0 Flood.early (Flood.proof 0) Flood.expected,
      .admitJTI 0 Flood.early (some (Flood.signing 0)),
      .read 1 Flood.late (Flood.proof 0) Flood.expected, .admitJTI 1 (Flood.late + 1) none]
    (by decide +kernel)
  exact proof_accepted_once hr

end AiAuth.Dpop
