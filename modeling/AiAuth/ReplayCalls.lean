import AiAuth.ReplayRuns

/-!
# Refused proofs and shared identifiers

Verifications on one verifier, each taking its turn at the replay cache. A call reads the
clock before its turn and the cache reads it again, so a call carries both instants. What a
refused call leaves behind, and what the calls of one key have to do with those of another.
-/
namespace AiAuth.Dpop
open Library

/-- One verification: the clock of the verifier, that of the cache, and what is asked. -/
structure Attempt where
  now : ℤ
  admitAt : ℤ
  proofJWT : Bytes
  expected : Expected
  deriving DecidableEq

def Attempt.verify (P : Platform) (seen : ReplayCache) (a : Attempt) :
    Except ProofError Proof × ReplayCache :=
  Dpop.verify P seen a.now a.admitAt a.proofJWT a.expected

/-- The identifier that a call takes to the cache, once its proof has passed every other check. -/
def Attempt.admits (P : Platform) (a : Attempt) : Option Bytes :=
  match inspect P a.now a.proofJWT a.expected with
  | .error _ => none
  | .ok o => some o.payload.jti

/-- The proof carries the key and is signed by it. -/
def Attempt.signedBy (P : Platform) (K : P256.Point) (a : Attempt) : Bool :=
  match openProof P a.proofJWT with
  | .error _ => false
  | .ok o => o.key = K

def newVerifier : ReplayCache := .new ReplayCache.capacity

/-- The cache after a verification. -/
def attempt (P : Platform) (seen : ReplayCache) (a : Attempt) : Option ReplayCache :=
  some (a.verify P seen).2

/-! ## Two clients with one identifier -/

namespace Shared

def payloadText : Bytes :=
  ascii "\x7b\"jti\":\"p0\",\"htm\":\"POST\",\"htu\":\"https://auth.example/token\"," ++
    ascii "\"iat\":1700000000\x7d"

def payload : Payload :=
  ⟨ascii "p0", ascii "POST", ascii "https://auth.example/token", 1700000000, []⟩

/-- A client with the digest of its key's text, and the digest and the signature of the proof
that it makes of the payload. -/
structure Client where
  key : P256.Point
  keyDigest : ℕ
  digest : ℕ
  sig : ℕ × ℕ

namespace Client
variable (c : Client)

def x : Bytes := Base64.encode (bigEndian 32 c.key.x)

def y : Bytes := Base64.encode (bigEndian 32 c.key.y)

def jwkRaw : Bytes :=
  ascii "\x7b\"kty\":\"EC\",\"crv\":\"P-256\",\"x\":\"" ++ c.x ++ ascii "\",\"y\":\"" ++ c.y ++
    ascii "\"\x7d"

def headerText : Bytes :=
  ascii "\x7b\"typ\":\"dpop+jwt\",\"alg\":\"ES256\",\"jwk\":" ++ c.jwkRaw ++ ascii "\x7d"

def signing : Bytes :=
  Jws.signingInput (Base64.encode c.headerText) (Base64.encode payloadText)

/-- The proof is made at the instant it names, for a request to the token endpoint. -/
def attempt : Attempt :=
  ⟨Time.ofUnix 1700000000, Time.ofUnix 1700000000,
    Jws.compact c.signing (Jws.sigBytes c.sig.1 c.sig.2),
    ⟨ascii "POST", ascii "https://auth.example/token", [], []⟩⟩

end Client

def mine : Client where
  key := P256.doubled
  keyDigest := 0x021a87cda6170393339830abb2c794b150462b27e10e1bde931d131e31ffc481
  digest := 0x791231d3919b9442d8512d819aec44b15c78cfb330d9f7e25516b50a6b51b136
  sig :=
    (0x6b6e13f47978ecacddd9dd367584af58ec9a1bf44acc4c2405f209c6c9f2d4d,
      0xefbaccb163f0c70fee8f1975aa3c8b900ff4d788e2e3ddabd52d492dd8ee7c9c)

/-- Another client, which uses the same identifier. -/
def other : Client where
  key := P256.generator
  keyDigest := 0xc71d01700fb0328870f1ab580c939eea9786328764946db04470655c732f9743
  digest := 0xd045b30204127eb0a00c9c0b01da8148da03b93b84737b24c68f0df847530639
  sig :=
    (0x34e43a18861b5f23b8a4e8aab176658df5c9b727864e4b972a1648cc64bf4c4d,
      0xb9ba19f0b88880c6fcadd07f9cc96ad23a44ad87d0272e6aa974b41ad8b21ddb)

def clients : List Client := [mine, other]

def platform : Platform where
  toCrypto := .ofTables
    (clients.flatMap fun c =>
      [(jwkText c.key, bigEndian 32 c.keyDigest), (c.signing, bigEndian 32 c.digest)])
    (clients.map fun c => (c.key, bigEndian 32 c.digest, c.sig))
  unmarshalHeader b :=
    (clients.map fun c =>
      (c.headerText, (⟨ascii "dpop+jwt", ascii "ES256", c.jwkRaw⟩ : Header))).lookup b
  unmarshalJWK b :=
    (clients.map fun c =>
      (c.jwkRaw, (⟨ascii "EC", ascii "P-256", c.x, c.y, []⟩ : JWK))).lookup b
  unmarshalPayload b := [(payloadText, payload)].lookup b
  toFolding := .ascii

lemma checked :
    mine.attempt.signedBy platform mine.key = true ∧
    other.attempt.signedBy platform mine.key = false ∧
    mine.attempt.admits platform = some (ascii "p0") ∧
    other.attempt.admits platform = some (ascii "p0") := by
  decide +kernel

end Shared

/-! ## What a call can do to the cache -/

namespace ReplayCache
variable {c : ReplayCache} {now keepUntil : ℤ} {jti k : Bytes}

lemma eq_of_items {c d : ReplayCache} (hi : c.items = d.items) (hm : c.max = d.max) : c = d := by
  obtain ⟨items, max, _⟩ := c
  obtain ⟨items', max', _⟩ := d
  obtain rfl : items = items' := hi
  obtain rfl : max = max' := hm
  rfl

@[simp] lemma admit_max : (c.admitJTI now jti keepUntil).2.max = c.max := by
  unfold admitJTI
  split_ifs <;> rfl

lemma size_admit_le : (c.admitJTI now jti keepUntil).2.items.size ≤ c.items.size + 1 := by
  have hpurged : (c.purged now).size ≤ c.items.size := by
    unfold purged
    split_ifs
    · exact Dict.size_retain_le _ _
    · exact le_rfl
  unfold admitJTI
  split_ifs
  · exact Nat.le_succ _
  · exact hpurged.trans (Nat.le_succ _)
  · exact (Dict.size_set_le _ _ _).trans (Nat.succ_le_succ hpurged)

/-- A cache that is full even after its purge had nothing to purge. -/
theorem admit_false (h : (c.admitJTI now jti keepUntil).1 = false) :
    (c.admitJTI now jti keepUntil).2 = c := by
  unfold admitJTI at h ⊢
  split_ifs at h ⊢ with hmem hfull
  · rfl
  · refine eq_of_items ?_ rfl
    change c.purged now = c.items
    by_cases hc : c.max ≤ c.items.size
    · rw [purged, if_pos hc] at hfull ⊢
      exact Dict.retain_eq_self (c.bounded.trans hfull)
    · exact if_neg hc

/-- Admitting an identifier removes only what is past its time. -/
theorem get_admit_of_ne (h : (c.admitJTI now jti keepUntil).1 = true) (hk : k ≠ jti) :
    (c.admitJTI now jti keepUntil).2.items.get k = c.items.get k ∨
      ∃ exp, c.items.get k = some exp ∧ exp < now ∧
        (c.admitJTI now jti keepUntil).2.items.get k = none := by
  have hitems : (c.admitJTI now jti keepUntil).2.items.get k = (c.purged now).get k := by
    unfold admitJTI at h ⊢
    split_ifs at h ⊢
    exact Dict.get_set_ne _ hk _
  rw [hitems, purged]
  split_ifs with hfull
  · cases hget : c.items.get k with
    | none =>
      refine .inl (Option.eq_none_iff_forall_ne_some.mpr fun exp hexp => ?_)
      rw [Dict.get_of_retain hexp] at hget
      cases hget
    | some exp =>
      by_cases hexp : exp < now
      · refine .inr ⟨exp, rfl, hexp, Option.eq_none_iff_forall_ne_some.mpr fun exp' hexp' => ?_⟩
        obtain ⟨hget', hkeep⟩ := Dict.get_retain.mp hexp'
        obtain rfl : exp = exp' := Option.some.inj (hget.symm.trans hget')
        simp [hexp] at hkeep
      · exact .inl (Dict.get_retain.mpr ⟨hget, by simpa using hexp⟩)
  · exact .inl rfl

end ReplayCache

section refusal
variable {P : Platform} {seen : ReplayCache} {a : Attempt}

/-- What a call answers and leaves behind: nothing happens before its proof has passed every
other check, and then the cache decides. -/
lemma verify_cases (P : Platform) (seen : ReplayCache) (a : Attempt) :
    (∃ err, inspect P a.now a.proofJWT a.expected = .error err ∧
      a.verify P seen = (.error err, seen)) ∨
    ∃ o, inspect P a.now a.proofJWT a.expected = .ok o ∧
      ((seen.admitJTI a.admitAt o.payload.jti (a.now + 2 * maxAge)).1 = false ∧
          a.verify P seen = (.error .replay, seen) ∨
        (seen.admitJTI a.admitAt o.payload.jti (a.now + 2 * maxAge)).1 = true ∧
          a.verify P seen = (.ok ⟨thumbprint P.toCrypto o.key, o.payload.jti⟩,
            (seen.admitJTI a.admitAt o.payload.jti (a.now + 2 * maxAge)).2)) := by
  unfold Attempt.verify verify
  cases hi : inspect P a.now a.proofJWT a.expected with
  | error err => exact .inl ⟨err, rfl, rfl⟩
  | ok o =>
    refine .inr ⟨o, rfl, ?_⟩
    dsimp only
    cases ha : seen.admitJTI a.admitAt o.payload.jti (a.now + 2 * maxAge) with
    | mk ok after =>
      cases ok with
      | false =>
        have hsame := ReplayCache.admit_false (congrArg Prod.fst ha)
        rw [ha] at hsame
        exact .inl ⟨rfl, by rw [show after = seen from hsame]⟩
      | true => exact .inr ⟨rfl, rfl⟩

lemma verify_max : (a.verify P seen).2.max = seen.max := by
  rcases verify_cases P seen a with ⟨err, -, hv⟩ | ⟨o, -, ⟨-, hv⟩ | ⟨-, hv⟩⟩
  · rw [hv]
  · rw [hv]
  · rw [hv, ReplayCache.admit_max]

/-- A call whose proof passes every other check leaves the cache as the admission does. -/
lemma verify_of_inspect {now admitAt : ℤ} {jwt : Bytes} {e : Expected} {o : Opened}
    (h : inspect P now jwt e = .ok o) :
    ((⟨now, admitAt, jwt, e⟩ : Attempt).verify P seen).2 =
      (seen.admitJTI admitAt o.payload.jti (now + 2 * maxAge)).2 := by
  rcases verify_cases P seen ⟨now, admitAt, jwt, e⟩ with ⟨err, hi, -⟩ |
    ⟨o', hi, ⟨hfalse, hv⟩ | ⟨-, hv⟩⟩
  · cases hi.symm.trans h
  · obtain rfl := Except.ok.inj (hi.symm.trans h)
    rw [hv, ReplayCache.admit_false hfalse]
  · obtain rfl := Except.ok.inj (hi.symm.trans h)
    rw [hv]

lemma size_verify_le : (a.verify P seen).2.items.size ≤ seen.items.size + 1 := by
  rcases verify_cases P seen a with ⟨err, -, hv⟩ | ⟨o, -, ⟨-, hv⟩ | ⟨hok, hv⟩⟩
  · rw [hv]
    exact Nat.le_succ _
  · rw [hv]
    exact Nat.le_succ _
  · rw [hv]
    exact ReplayCache.size_admit_le

lemma max_of_run {tr : List Attempt} (hr : Run (StepOf (attempt P)) newVerifier tr seen) :
    seen.max = ReplayCache.capacity := by
  refine hr.invariant (fun _ c => c.max = ReplayCache.capacity) rfl ?_
  rintro tr c a c' - hc hstep
  obtain rfl := Option.some.inj hstep
  exact verify_max.trans hc

end refusal

/-- The cache never outgrows its bound. A refused proof leaves it as it was; an accepted one
adds its identifier, and removes only identifiers that are past their time. -/
theorem refused_without_trace {P : Platform} {tr : List Attempt} {seen : ReplayCache}
    (hr : Run (StepOf (attempt P)) newVerifier tr seen) :
    seen.items.size ≤ ReplayCache.capacity ∧ ∀ a : Attempt,
      (∀ err, (a.verify P seen).1 = .error err → (a.verify P seen).2 = seen) ∧
      ∀ proof, (a.verify P seen).1 = .ok proof →
        seen.items.get proof.jti = none ∧
        (a.verify P seen).2.items.get proof.jti = some (a.now + 2 * maxAge) ∧
        ∀ k, k ≠ proof.jti → (a.verify P seen).2.items.get k = seen.items.get k ∨
          ∃ exp, seen.items.get k = some exp ∧ exp < a.admitAt ∧
            (a.verify P seen).2.items.get k = none := by
  refine ⟨(max_of_run hr).symm ▸ seen.bounded, fun a => ⟨fun err herr => ?_, fun proof hok => ?_⟩⟩
  · rcases verify_cases P seen a with ⟨err', -, hv⟩ | ⟨o, -, ⟨-, hv⟩ | ⟨-, hv⟩⟩
    · rw [hv]
    · rw [hv]
    · rw [hv] at herr
      cases herr
  · rcases verify_cases P seen a with ⟨err, -, hv⟩ | ⟨o, -, ⟨-, hv⟩ | ⟨hadmitted, hv⟩⟩
    · rw [hv] at hok
      cases hok
    · rw [hv] at hok
      cases hok
    · rw [hv] at hok ⊢
      obtain rfl := Except.ok.inj hok
      obtain ⟨hnew, hget⟩ := ReplayCache.admit_true hadmitted
      exact ⟨hnew, hget, fun k hk => ReplayCache.get_admit_of_ne hadmitted hk⟩

theorem refused_without_trace_worked : ∃ seen,
    Run (StepOf (attempt Shared.platform)) newVerifier [Shared.mine.attempt] seen ∧
    ∀ (a : Attempt) err, (a.verify Shared.platform seen).1 = .error err →
      (a.verify Shared.platform seen).2 = seen := by
  have hr : Run (StepOf (attempt Shared.platform)) newVerifier [Shared.mine.attempt]
      (Shared.mine.attempt.verify Shared.platform newVerifier).2 := .single rfl
  exact ⟨_, hr, fun a => ((refused_without_trace hr).2 a).1⟩

/-- Verifications that overlap leave the cache as they do one after the other, in the order of
their turns. -/
theorem one_by_one {P : Platform} {clock : ℤ} {tr : List Event} {s : State}
    (hr : Run (StepOf (step P)) (.start clock ReplayCache.capacity) tr s) :
    ∃ as, Run (StepOf (attempt P)) newVerifier as s.seen := by
  have hinv : (∃ as, Run (StepOf (attempt P)) newVerifier as s.seen) ∧
      ∀ n c, s.calls.get n = some c → ∃ jwt e, inspect P c.readAt jwt e = .ok c.proof := by
    refine hr.invariant (fun _ s => (∃ as, Run (StepOf (attempt P)) newVerifier as s.seen) ∧
      ∀ n c, s.calls.get n = some c → ∃ jwt e, inspect P c.readAt jwt e = .ok c.proof)
      ⟨⟨[], .nil⟩, by simp [State.start]⟩ ?_
    rintro tr s (⟨n, now, jwt, e⟩ | ⟨n, now, out⟩) s' - ⟨⟨as, has⟩, hcalls⟩ hstep
    · simp only [StepOf, step] at hstep
      split_ifs at hstep
      obtain rfl := Option.some.inj hstep
      unfold State.read
      split
      · exact ⟨⟨as, has⟩, hcalls⟩
      next o ho =>
        refine ⟨⟨as, has⟩, fun m c hc => ?_⟩
        rcases Dict.get_of_set hc with ⟨-, rfl⟩ | ⟨-, hc⟩
        · exact ⟨jwt, e, ho⟩
        · exact hcalls m c hc
    · simp only [StepOf, step] at hstep
      split at hstep
      · cases hstep
      next c hc =>
        split_ifs at hstep
        obtain rfl := Option.some.inj hstep
        obtain ⟨jwt, e, hi⟩ := hcalls n c hc
        refine ⟨⟨as ++ [⟨c.readAt, now, jwt, e⟩], has.snoc ?_⟩, fun m d hd =>
          hcalls m d (Dict.get_of_remove hd)⟩
        exact congrArg some (verify_of_inspect hi)
  exact hinv.1

/-! ## The calls of one key among those of others -/

/-- The cache after some calls. -/
def after (P : Platform) (as : List Attempt) : ReplayCache :=
  as.foldl (fun c a => (a.verify P c).2) newVerifier

/-- The calls with their answers. -/
def answers (P : Platform) : ReplayCache → List Attempt → List (Attempt × Except ProofError Proof)
  | _, [] => []
  | seen, a :: as => (a, (a.verify P seen).1) :: answers P (a.verify P seen).2 as

/-- The answers to the calls whose proofs are signed by `K`, from a new verifier. -/
def answersTo (P : Platform) (K : P256.Point) (as : List Attempt) :
    List (Attempt × Except ProofError Proof) :=
  (answers P newVerifier as).filter fun x => x.1.signedBy P K

/-- No call finds the cache full. -/
def HasRoom (P : Platform) (as : List Attempt) : Prop :=
  ∀ pre a post, as = pre ++ a :: post → (after P pre).items.size < ReplayCache.capacity

/-- `as'` is `as` less some calls that fail the test. -/
inductive Spared (q : Attempt → Bool) : List Attempt → List Attempt → Prop
  | nil : Spared q [] []
  | keep {as as'} (a : Attempt) : Spared q as as' → Spared q (a :: as) (a :: as')
  | drop {as as'} (a : Attempt) : q a = false → Spared q as as' → Spared q (a :: as) as'

/-- Some call took the identifier to the cache. -/
def Taken (P : Platform) (as : List Attempt) (jti : Bytes) : Prop :=
  ∃ b ∈ as, b.admits P = some jti

/-- Without any of the calls that `K` does not sign, the calls of `K` are answered the same; and
the first call of `K` for an identifier is not a replay. -/
structure Separate (P : Platform) (K : P256.Point) (as : List Attempt) : Prop where
  same : ∀ as', Spared (Attempt.signedBy P K) as as' → answersTo P K as' = answersTo P K as
  first : ∀ pre a post jti, as = pre ++ a :: post → a.signedBy P K = true →
    a.admits P = some jti → ¬ Taken P (pre.filter (Attempt.signedBy P K)) jti →
    (a.verify P (after P pre)).1 ≠ .error .replay

/-- An identifier that `K` brings was taken before only if `K` itself took it. -/
def Clear (P : Platform) (K : P256.Point) (as : List Attempt) : Prop :=
  ∀ pre a post, as = pre ++ a :: post → a.signedBy P K = true → ∀ jti, a.admits P = some jti →
    Taken P pre jti → Taken P (pre.filter (Attempt.signedBy P K)) jti

section separation
variable {P : Platform} {K : P256.Point} {seen : ReplayCache} {a : Attempt}
  {pre pre' as as' : List Attempt} {jti : Bytes}

/-- The answer of a cache that knows certain identifiers and has room. -/
def Attempt.answer (P : Platform) (a : Attempt) (known : Bytes → Prop) [DecidablePred known] :
    Except ProofError Proof :=
  match inspect P a.now a.proofJWT a.expected with
  | .error err => .error err
  | .ok o =>
    if known o.payload.jti then .error .replay else .ok ⟨thumbprint P.toCrypto o.key, o.payload.jti⟩

instance (as : List Attempt) : DecidablePred (Taken P as) := fun jti =>
  inferInstanceAs (Decidable (∃ b ∈ as, b.admits P = some jti))

lemma taken_snoc : Taken P (as ++ [a]) jti ↔ Taken P as jti ∨ a.admits P = some jti := by
  simp only [Taken, List.mem_append, List.mem_singleton, or_and_right, exists_or, exists_eq_left]

/-- Two answers to a call agree exactly where its identifier is known to both or to neither. -/
lemma answer_eq_iff {known known' : Bytes → Prop} [DecidablePred known] [DecidablePred known'] :
    a.answer P known = a.answer P known' ↔
      ∀ jti, a.admits P = some jti → (known jti ↔ known' jti) := by
  unfold Attempt.answer Attempt.admits
  cases inspect P a.now a.proofJWT a.expected with
  | error err => simp
  | ok o =>
    simp only [Option.some.injEq, forall_eq']
    by_cases h : known o.payload.jti <;> by_cases h' : known' o.payload.jti <;> simp [h, h']

/-- A call that takes an identifier to the cache is refused exactly where it is known. -/
lemma answer_replay_iff {known : Bytes → Prop} [DecidablePred known]
    (ha : a.admits P = some jti) : a.answer P known = .error .replay ↔ known jti := by
  unfold Attempt.admits at ha
  unfold Attempt.answer
  cases hi : inspect P a.now a.proofJWT a.expected with
  | error err =>
    rw [hi] at ha
    cases ha
  | ok o =>
    rw [hi] at ha
    obtain rfl := Option.some.inj ha
    by_cases hk : known o.payload.jti <;> simp [hk]

@[simp] lemma after_snoc : after P (as ++ [a]) = (a.verify P (after P as)).2 := by
  rw [after, List.foldl_append]
  rfl

lemma after_max : (after P as).max = ReplayCache.capacity := by
  induction as using List.reverseRecOn with
  | nil => rfl
  | append_singleton as a ih => rw [after_snoc, verify_max, ih]

lemma size_after_le : (after P as).items.size ≤ as.length := by
  induction as using List.reverseRecOn with
  | nil => exact le_rfl
  | append_singleton as a ih =>
    rw [after_snoc, List.length_append, List.length_singleton]
    exact size_verify_le.trans (Nat.succ_le_succ ih)

/-- A cache has room for as many calls as it can hold identifiers. -/
lemma hasRoom_of_length (h : as.length ≤ ReplayCache.capacity) : HasRoom P as := by
  rintro pre a post rfl
  rw [List.length_append, List.length_cons] at h
  have hsize : (after P pre).items.size ≤ pre.length := size_after_le
  omega

lemma HasRoom.lt (h : HasRoom P (pre ++ a :: as)) :
    (after P pre).items.size < (after P pre).max := by
  rw [after_max]
  exact h pre a as rfl

lemma HasRoom.of_append (h : HasRoom P (as ++ as')) : HasRoom P as := by
  rintro pre a post rfl
  exact h pre a (post ++ as') (by simp)

/-- What is remembered was remembered before, or is the identifier of the call. -/
lemma get_verify (h : ((a.verify P seen).2.items.get jti).isSome) :
    (seen.items.get jti).isSome ∨ a.admits P = some jti := by
  rcases verify_cases P seen a with ⟨err, -, hv⟩ | ⟨o, hi, ⟨-, hv⟩ | ⟨hok, hv⟩⟩
  · rw [hv] at h
    exact .inl h
  · rw [hv] at h
    exact .inl h
  · by_cases hj : jti = o.payload.jti
    · exact .inr (by rw [Attempt.admits, hi, hj])
    · rw [hv] at h
      left
      rcases ReplayCache.get_admit_of_ne hok hj with hsame | ⟨exp, -, -, hgone⟩
      · rwa [← hsame]
      · rw [hgone] at h
        cases h

/-- With room, the cache refuses an identifier only if it remembers it. -/
lemma verify_room (hroom : seen.items.size < seen.max) :
    (a.verify P seen).1 = a.answer P (fun jti => (seen.items.get jti).isSome) ∧
      ∀ jti, ((a.verify P seen).2.items.get jti).isSome ↔
        (seen.items.get jti).isSome ∨ a.admits P = some jti := by
  have hback := fun jti => @get_verify P seen a jti
  rcases verify_cases P seen a with ⟨err, hi, hv⟩ | ⟨o, hi, ⟨hfalse, hv⟩ | ⟨hok, hv⟩⟩
  · refine ⟨by rw [hv, Attempt.answer, hi], fun jti => ⟨hback jti, fun h => ?_⟩⟩
    rw [hv]
    exact h.resolve_right (by simp [Attempt.admits, hi])
  · have hknown : (seen.items.get o.payload.jti).isSome := by
      by_contra hnone
      rw [Option.not_isSome_iff_eq_none] at hnone
      rw [(ReplayCache.admit_room a.admitAt (a.now + 2 * maxAge) hnone hroom).1] at hfalse
      cases hfalse
    refine ⟨by rw [hv, Attempt.answer, hi]; exact (if_pos hknown).symm,
      fun jti => ⟨hback jti, fun h => ?_⟩⟩
    rw [hv]
    rcases h with h | h
    · exact h
    · rw [Attempt.admits, hi] at h
      rwa [← Option.some.inj h]
  · have hnew := (ReplayCache.admit_true hok).1
    obtain ⟨-, hitems, -⟩ := ReplayCache.admit_room a.admitAt (a.now + 2 * maxAge) hnew hroom
    refine ⟨by rw [hv, Attempt.answer, hi]; simp [hnew], fun jti => ⟨hback jti, fun h => ?_⟩⟩
    rw [hv, hitems, Dict.get_set]
    split_ifs with hj
    · rfl
    · refine h.resolve_right fun h => hj ?_
      rw [Attempt.admits, hi] at h
      exact (Option.some.inj h).symm

/-- What is remembered was taken to the cache. -/
lemma taken_of_get (h : ((after P as).items.get jti).isSome) : Taken P as jti := by
  induction as using List.reverseRecOn with
  | nil => simp [after, newVerifier, ReplayCache.new] at h
  | append_singleton as a ih =>
    rw [after_snoc] at h
    exact taken_snoc.mpr ((get_verify h).imp_left ih)

/-- A cache with room has forgotten nothing. -/
lemma get_after_iff (hroom : HasRoom P as) :
    ((after P as).items.get jti).isSome ↔ Taken P as jti := by
  refine ⟨taken_of_get, fun h => ?_⟩
  induction as using List.reverseRecOn with
  | nil => simp [Taken] at h
  | append_singleton as a ih =>
    rw [after_snoc, (verify_room (HasRoom.lt hroom)).2]
    exact (taken_snoc.mp h).imp_left (ih hroom.of_append)

lemma verify_after (hroom : HasRoom P (pre ++ a :: as)) :
    (a.verify P (after P pre)).1 = a.answer P (Taken P pre) := by
  rw [(verify_room hroom.lt).1, answer_eq_iff]
  exact fun jti _ => get_after_iff hroom.of_append

/-- The answers of a cache that never runs out of room, given the calls before. -/
def roomy (P : Platform) : List Attempt → List Attempt → List (Attempt × Except ProofError Proof)
  | _, [] => []
  | pre, a :: as => (a, a.answer P (Taken P pre)) :: roomy P (pre ++ [a]) as

lemma answers_eq_roomy (pre : List Attempt) (hroom : HasRoom P (pre ++ as)) :
    answers P (after P pre) as = roomy P pre as := by
  induction as generalizing pre with
  | nil => rfl
  | cons a as ih =>
    have hrest := ih (pre ++ [a]) (by simpa using hroom)
    rw [after_snoc] at hrest
    rw [answers, roomy, verify_after hroom, hrest]

lemma answersTo_eq (hroom : HasRoom P as) :
    answersTo P K as = (roomy P [] as).filter fun x => x.1.signedBy P K := by
  rw [answersTo, ← answers_eq_roomy [] hroom]
  rfl

lemma Spared.taken {q : Attempt → Bool} (h : Spared q as as') (ht : Taken P as' jti) :
    Taken P as jti := by
  obtain ⟨b, hb, hj⟩ := ht
  refine ⟨b, ?_, hj⟩
  clear hj
  induction h with
  | nil => exact hb
  | keep a _ ih =>
    rcases List.mem_cons.mp hb with rfl | hb
    · exact List.mem_cons_self
    · exact List.mem_cons_of_mem _ (ih hb)
  | drop a _ _ ih => exact List.mem_cons_of_mem _ (ih hb)

/-- What came before a call that stays has lost calls of the same kind. -/
lemma Spared.before {q : Attempt → Bool} (h : Spared q as as') :
    ∀ pre' a post', as' = pre' ++ a :: post' →
      ∃ pre post, as = pre ++ a :: post ∧ Spared q pre pre' := by
  induction h with
  | nil =>
    intro pre' a post' has
    simp at has
  | @keep as as' b h ih =>
    intro pre' a post' has
    cases pre' with
    | nil =>
      obtain ⟨rfl, rfl⟩ := List.cons.inj has
      exact ⟨[], as, rfl, .nil⟩
    | cons c pre' =>
      obtain ⟨rfl, hrest⟩ := List.cons.inj has
      obtain ⟨pre, post, rfl, hpre⟩ := ih pre' a post' hrest
      exact ⟨b :: pre, post, rfl, .keep b hpre⟩
  | drop b hb _ ih =>
    intro pre' a post' has
    obtain ⟨pre, post, rfl, hpre⟩ := ih pre' a post' has
    exact ⟨b :: pre, post, rfl, .drop b hb hpre⟩

/-- With fewer calls the cache has room as well. -/
lemma HasRoom.of_spared {q : Attempt → Bool} (hroom : HasRoom P as) (h : Spared q as as') :
    HasRoom P as' := by
  intro pre' a post' has
  obtain ⟨pre, post, rfl, hpre⟩ := h.before pre' a post' has
  refine (Dict.size_le_of_get fun jti hjti => ?_).trans_lt (hroom pre a post rfl)
  exact (get_after_iff hroom.of_append).mpr (hpre.taken (taken_of_get hjti))

/-- The spared calls are answered the same, as nothing that was dropped had a say. -/
lemma roomy_spared (h : Spared (Attempt.signedBy P K) as as') (hclear : Clear P K (pre ++ as))
    (hless : ∀ jti, Taken P pre' jti → Taken P pre jti)
    (hkept : ∀ jti, Taken P (pre.filter (Attempt.signedBy P K)) jti → Taken P pre' jti) :
    (roomy P pre' as').filter (fun x => x.1.signedBy P K) =
      (roomy P pre as).filter fun x => x.1.signedBy P K := by
  induction h generalizing pre pre' with
  | nil => rfl
  | @keep as as' a h ih =>
    have hrest := @ih (pre ++ [a]) (pre' ++ [a]) (by simpa using hclear)
      (fun jti ht => taken_snoc.mpr ((taken_snoc.mp ht).imp_left (hless jti)))
      (fun jti ht => ?_)
    · rw [roomy, roomy, List.filter_cons, List.filter_cons, hrest]
      split_ifs with hsigned
      · rw [answer_eq_iff.mpr fun jti ha => ⟨hless jti, fun ht =>
          hkept jti (hclear pre a as rfl hsigned jti ha ht)⟩]
      · rfl
    · rw [List.filter_append] at ht
      obtain ⟨b, hb, hj⟩ := ht
      rcases List.mem_append.mp hb with hb | hb
      · exact taken_snoc.mpr (.inl (hkept jti ⟨b, hb, hj⟩))
      · obtain rfl := List.mem_singleton.mp (List.mem_of_mem_filter hb)
        exact taken_snoc.mpr (.inr hj)
  | drop a ha h ih =>
    rw [roomy, List.filter_cons, if_neg (by simp [ha])]
    refine ih (by simpa using hclear) (fun jti ht => taken_snoc.mpr (.inl (hless jti ht)))
      fun jti ht => hkept jti ?_
    simpa [List.filter_append, ha] using ht

/-- Where the answers are those of the calls of `K` alone, every call of `K` is answered as if
there were no others. -/
lemma answer_of_roomy (pre : List Attempt)
    (h : (roomy P (pre.filter (Attempt.signedBy P K)) (as.filter (Attempt.signedBy P K))).filter
        (fun x => x.1.signedBy P K) = (roomy P pre as).filter fun x => x.1.signedBy P K) :
    ∀ mid a post, as = mid ++ a :: post → a.signedBy P K = true →
      a.answer P (Taken P ((pre ++ mid).filter (Attempt.signedBy P K))) =
        a.answer P (Taken P (pre ++ mid)) := by
  induction as generalizing pre with
  | nil =>
    intro mid a post has
    simp at has
  | cons b as ih =>
    have htail : (roomy P ((pre ++ [b]).filter (Attempt.signedBy P K))
          (as.filter (Attempt.signedBy P K))).filter (fun x => x.1.signedBy P K) =
        (roomy P (pre ++ [b]) as).filter fun x => x.1.signedBy P K := by
      by_cases hb : b.signedBy P K = true
      · rw [List.filter_cons_of_pos hb, roomy, roomy, List.filter_cons_of_pos (by exact hb),
          List.filter_cons_of_pos (by exact hb)] at h
        simpa [List.filter_append, hb] using (List.cons.inj h).2
      · rw [List.filter_cons_of_neg hb, roomy, List.filter_cons_of_neg (by exact hb)] at h
        simpa [List.filter_append, hb] using h
    intro mid a post has ha
    cases mid with
    | nil =>
      obtain ⟨rfl, rfl⟩ := List.cons.inj has
      rw [List.filter_cons_of_pos ha, roomy, roomy, List.filter_cons_of_pos (by exact ha),
        List.filter_cons_of_pos (by exact ha)] at h
      simpa using (Prod.mk.inj (List.cons.inj h).1).2
    | cons c mid =>
      obtain ⟨rfl, hrest⟩ := List.cons.inj has
      simpa using ih (pre ++ [b]) htail mid a post hrest ha

lemma spared_filter {q : Attempt → Bool} : ∀ as, Spared q as (as.filter q)
  | [] => .nil
  | a :: as => by
    by_cases ha : q a = true
    · rw [List.filter_cons_of_pos ha]
      exact .keep a (spared_filter as)
    · rw [List.filter_cons_of_neg ha]
      exact .drop a (by simpa using ha) (spared_filter as)

end separation

/-- On a verifier that never runs out of room, the calls of other keys leave those of `K` alone
exactly where none of them is the first to bring an identifier that `K` brings later. -/
theorem separate_iff {P : Platform} {K : P256.Point} {as : List Attempt} (hroom : HasRoom P as) :
    Separate P K as ↔ Clear P K as := by
  constructor
  · intro h pre a post has ha jti hadmits
    have hsame := h.same _ (spared_filter as)
    rw [answersTo_eq hroom, answersTo_eq (hroom.of_spared (spared_filter as))] at hsame
    have hanswer := answer_of_roomy [] hsame pre a post has ha
    exact (answer_eq_iff.mp hanswer jti hadmits).mpr
  · intro hclear
    refine ⟨fun as' h => ?_, fun pre a post jti has ha hadmits hfirst => ?_⟩
    · rw [answersTo_eq hroom, answersTo_eq (hroom.of_spared h)]
      exact roomy_spared h hclear (fun jti ht => ht) fun jti ht => ht
    · subst has
      rw [verify_after hroom]
      exact fun hreplay => hfirst (hclear pre a post rfl ha jti hadmits
        ((answer_replay_iff hadmits).mp hreplay))

/-- A first use is refused when another client has used the identifier. -/
theorem identifiers_shared :
    ¬ ∀ (P : Platform) (K : P256.Point) (as : List Attempt), HasRoom P as → Separate P K as := by
  intro h
  obtain ⟨hsigned, hother, hadmits, htaken⟩ := Shared.checked
  have hroom : HasRoom Shared.platform [Shared.other.attempt, Shared.mine.attempt] :=
    hasRoom_of_length (by decide)
  refine (h _ Shared.mine.key _ hroom).first [Shared.other.attempt] Shared.mine.attempt [] _ rfl
    hsigned
    hadmits (by simp [Taken, hother]) ?_
  rw [verify_after hroom, answer_replay_iff hadmits]
  exact ⟨_, List.mem_cons_self, htaken⟩

/-- Used first by its own client, the identifier is safe from the other. -/
theorem separate_iff_worked :
    Separate Shared.platform Shared.mine.key [Shared.mine.attempt, Shared.other.attempt] := by
  obtain ⟨-, hother, -, -⟩ := Shared.checked
  refine (separate_iff (hasRoom_of_length (by decide))).mpr fun pre a post has ha jti _ ht => ?_
  cases pre with
  | nil => simp [Taken] at ht
  | cons b pre =>
    cases pre with
    | nil =>
      obtain ⟨-, hrest⟩ := List.cons.inj has
      obtain ⟨rfl, -⟩ := List.cons.inj hrest
      rw [hother] at ha
      cases ha
    | cons c pre => simp at has

end AiAuth.Dpop
