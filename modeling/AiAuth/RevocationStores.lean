import AiAuth.Library.Runs
import AiAuth.Store

/-!
# Revocation in memory and in the database

Both backends take the same calls, each at one reading of one clock, and the job that deletes
expired rows runs at any time. A mark in memory is overwritten where a row only moves forward,
so the two agree as long as no call brings a mark forward that still stands.
-/
namespace AiAuth.RevocationStores
open Library
open Store (Whole timestamptz storable)

inductive Event
  | revokeToken (t : ℤ) (jti : Bytes) (forgetAfter : ℤ)
  | revokeSubject (t : ℤ) (tenantID subjectID : Bytes)
  | revokeTenant (t : ℤ) (tenantID : Bytes)
  | deleteExpired (t : ℤ)

def Event.time : Event → ℤ
  | .revokeToken t _ _ | .revokeSubject t _ _ | .revokeTenant t _ | .deleteExpired t => t

structure State where
  clock : ℤ
  mem : Sessions.Revocations
  db : Store.Revocations

def State.start (clock : ℤ) : State := ⟨clock, .new, .new⟩

/-- One call on both backends. The clock does not go back, reads whole microseconds, and the
database answers. -/
def step (s : State) (e : Event) : Option State :=
  if s.clock ≤ e.time ∧ Whole e.time then
    match e with
    | .revokeToken t jti forgetAfter => (s.db.revokeToken jti forgetAfter).map fun db =>
      ⟨t, s.mem.revokeToken t jti forgetAfter, db⟩
    | .revokeSubject t tenantID subjectID =>
      if subjectID = [] then none
      else (s.db.revokeSubject t tenantID subjectID).map fun db =>
        ⟨t, s.mem.revokeSubject t tenantID subjectID, db⟩
    | .revokeTenant t tenantID => (s.db.revokeTenant t tenantID).map fun db =>
      ⟨t, s.mem.revokeTenant t tenantID, db⟩
    | .deleteExpired t => some ⟨t, s.mem, s.db.deleteExpired t⟩
  else none

/-- Both backends after a token was revoked. -/
def State.markToken (s : State) (t : ℤ) (jti : Bytes) (forgetAfter : ℤ) : State where
  clock := t
  mem := s.mem.revokeToken t jti forgetAfter
  db := ⟨s.db.revokedTokens.set jti
    (Store.greatest (s.db.revokedTokens.get jti) (timestamptz forgetAfter)), s.db.cutoffs⟩

/-- A table of cutoffs after one of its rows took a reading of the clock. -/
def State.cutRow (s : State) (t : ℤ) (key : Bytes × Bytes) : Store.Revocations :=
  ⟨s.db.revokedTokens, s.db.cutoffs.set key (Store.greatest (s.db.cutoffs.get key) t)⟩

/-- What a call does to both backends. -/
inductive Moves (s : State) : Event → State → Prop
  | revokeToken {t jti forgetAfter} : s.clock ≤ t → Whole t → storable jti = true →
    Moves s (.revokeToken t jti forgetAfter) (s.markToken t jti forgetAfter)
  | revokeSubject {t tenantID subjectID} : s.clock ≤ t → Whole t → subjectID ≠ [] →
    Moves s (.revokeSubject t tenantID subjectID)
      ⟨t, s.mem.revokeSubject t tenantID subjectID, s.cutRow t (tenantID, subjectID)⟩
  | revokeTenant {t tenantID} : s.clock ≤ t → Whole t →
    Moves s (.revokeTenant t tenantID) ⟨t, s.mem.revokeTenant t tenantID, s.cutRow t (tenantID, [])⟩
  | deleteExpired {t} : s.clock ≤ t → Whole t →
    Moves s (.deleteExpired t) ⟨t, s.mem, s.db.deleteExpired t⟩

variable {s s' : State} {e : Event} {tr : List Event}

lemma step_revokeToken {t f : ℤ} {jti : Bytes} (ht : s.clock ≤ t) (hwhole : Whole t)
    (hstore : storable jti = true) :
    step s (.revokeToken t jti f) = some (s.markToken t jti f) := by
  rw [step, if_pos ⟨ht, hwhole⟩]
  simp only [Store.Revocations.revokeToken, if_pos hstore, Option.map_some]
  rfl

lemma moves_of_step (h : step s e = some s') : Moves s e s' := by
  unfold step at h
  split_ifs at h with hg
  obtain ⟨hclock, hwhole⟩ := hg
  cases e with
  | revokeToken t jti f =>
    simp only [Store.Revocations.revokeToken, Option.map_eq_some_iff] at h
    obtain ⟨db, hdb, rfl⟩ := h
    split_ifs at hdb with hjti
    obtain rfl := Option.some.inj hdb
    exact .revokeToken hclock hwhole hjti
  | revokeSubject t tenantID subjectID =>
    simp only [Store.Revocations.revokeSubject] at h
    split_ifs at h with hsub hstore
    · exact Option.some.inj h ▸ .revokeSubject hclock hwhole hsub
    · cases h
  | revokeTenant t tenantID =>
    simp only [Store.Revocations.revokeTenant, Store.Revocations.revokeSubject] at h
    split_ifs at h with hstore
    · exact Option.some.inj h ▸ .revokeTenant hclock hwhole
    · cases h
  | deleteExpired t => exact Option.some.inj h ▸ .deleteExpired hclock hwhole

/-! ## Cutoffs -/

/-- The rows of the cutoffs are the entries in memory, and none lies in the future. -/
structure SameCutoffs (s : State) : Prop where
  subjects : ∀ T S, S ≠ [] → s.mem.subjects.get (T, S) = s.db.cutoffs.get (T, S)
  tenants : ∀ T, s.mem.tenants.get T = s.db.cutoffs.get (T, [])
  past : ∀ k c, s.db.cutoffs.get k = some c → c ≤ s.clock

/-- A row that takes the reading of the clock, which is the greatest one. -/
lemma SameCutoffs.greatest (h : SameCutoffs s) {t : ℤ} (ht : s.clock ≤ t) (k : Bytes × Bytes) :
    Store.greatest (s.db.cutoffs.get k) t = t :=
  Store.greatest_of_le fun c hc => (h.past k c hc).trans ht

lemma SameCutoffs.past_set (h : SameCutoffs s) {t : ℤ} (ht : s.clock ≤ t) {k k' : Bytes × Bytes}
    {c : ℤ} (hc : (s.db.cutoffs.set k t).get k' = some c) : c ≤ t := by
  exact Dict.forall_get_set (fun k c hc => (h.past k c hc).trans ht) le_rfl k' c hc

lemma SameCutoffs.step (h : SameCutoffs s) (hm : Moves s e s') : SameCutoffs s' := by
  cases hm with
  | revokeToken ht _ _ => exact ⟨h.subjects, h.tenants, fun k c hc => (h.past k c hc).trans ht⟩
  | @revokeSubject t tenantID subjectID ht _ hsub =>
    rw [State.cutRow, h.greatest ht]
    refine ⟨fun T S hS => ?_, fun T => ?_, fun k c hc => h.past_set ht hc⟩
    · simp only [Sessions.Revocations.revokeSubject, Dict.get_set, h.subjects T S hS]
    · have hne : (T, ([] : Bytes)) ≠ (tenantID, subjectID) := fun heq =>
        hsub (Prod.mk.inj heq).2.symm
      simp only [Sessions.Revocations.revokeSubject, Dict.get_set, if_neg hne, h.tenants T]
  | @revokeTenant t tenantID ht _ =>
    rw [State.cutRow, h.greatest ht]
    refine ⟨fun T S hS => ?_, fun T => ?_, fun k c hc => h.past_set ht hc⟩
    · have hne : (T, S) ≠ (tenantID, []) := fun heq => hS (Prod.mk.inj heq).2
      simp only [Sessions.Revocations.revokeTenant, Dict.get_set, if_neg hne, h.subjects T S hS]
    · simp only [Sessions.Revocations.revokeTenant, Dict.get_set, Prod.mk.injEq, and_true,
        h.tenants T]
  | deleteExpired ht _ => exact ⟨h.subjects, h.tenants, fun k c hc => (h.past k c hc).trans ht⟩

/-- At the resolution of the database both backends find the same cutoffs. -/
lemma SameCutoffs.answer (h : SameCutoffs s) {tenantID subjectID : Bytes} {issuedAt : ℤ}
    (hsub : subjectID ≠ []) (hissued : Whole issuedAt) :
    s.mem.cutOff tenantID subjectID issuedAt = [subjectID, []].any fun S =>
      Store.Revocations.reaches issuedAt (s.db.cutoffs.get (tenantID, S)) := by
  have hreach : ∀ c, Sessions.Revocations.caughtBy issuedAt c =
      Store.Revocations.reaches issuedAt c := by
    intro c
    cases c with
    | none => rfl
    | some c =>
      have hkept : timestamptz issuedAt = issuedAt := hissued
      rw [Bool.eq_iff_iff, Sessions.Revocations.caughtBy_some]
      simp [Store.Revocations.reaches, hkept]
  simp [Sessions.Revocations.cutOff, h.subjects tenantID subjectID hsub, h.tenants, hreach]

/-! ## Marks -/

/-- The token was revoked. -/
def Revoked (tr : List Event) (jti : Bytes) : Prop := ∃ t f, .revokeToken t jti f ∈ tr

/-- A call does not bring the mark of a token forward while it stands: the new time reaches the
microsecond of the one held in memory, or that one has passed. -/
def keepsMark (r : Sessions.Revocations) : Event → Bool
  | .revokeToken t jti f =>
    (r.tokens.get jti).all fun held => decide (timestamptz held ≤ f) || decide (held < t)
  | _ => true

/-- Both backends know marks of revoked tokens only, and until the time of a revocation has
passed both know one that lasts as long. -/
structure Marks (tr : List Event) (s : State) : Prop where
  mem : ∀ jti f, s.mem.tokens.get jti = some f → ∃ t, .revokeToken t jti f ∈ tr
  db : ∀ jti f, s.db.revokedTokens.get jti = some f → Revoked tr jti
  kept : ∀ t jti f, .revokeToken t jti f ∈ tr → s.clock ≤ f →
    (∃ g, s.mem.tokens.get jti = some g ∧ timestamptz f ≤ timestamptz g) ∧
      ∃ g, s.db.revokedTokens.get jti = some g ∧ timestamptz f ≤ g

lemma Revoked.snoc {jti : Bytes} (h : Revoked tr jti) : Revoked (tr ++ [e]) jti := by
  obtain ⟨t, f, hmem⟩ := h
  exact ⟨t, f, List.mem_append_left _ hmem⟩

/-- A call that touches no mark in memory, and drops rows that have passed. -/
lemma Marks.idle (h : Marks tr s) (hother : ∀ t jti f, e ≠ .revokeToken t jti f)
    (hclock : s.clock ≤ s'.clock) (hmem : s'.mem.tokens = s.mem.tokens)
    (hdb : ∀ jti f, s'.db.revokedTokens.get jti = some f → s.db.revokedTokens.get jti = some f)
    (hkept : ∀ jti f, s.db.revokedTokens.get jti = some f → s'.clock ≤ f →
      s'.db.revokedTokens.get jti = some f) (hwhole : Whole s'.clock) : Marks (tr ++ [e]) s' where
  mem jti f hf := by
    obtain ⟨t, ht⟩ := h.mem jti f (hmem ▸ hf)
    exact ⟨t, List.mem_append_left _ ht⟩
  db jti f hf := (h.db jti f (hdb jti f hf)).snoc
  kept t jti f hmem' hf := by
    rcases List.mem_append.mp hmem' with hold | hnew
    · obtain ⟨hm, g, hg, hle⟩ := h.kept t jti f hold (hclock.trans hf)
      exact ⟨hmem ▸ hm, g, hkept jti g hg ((hwhole.le_timestamptz.mpr hf).trans hle), hle⟩
    · exact absurd (List.mem_singleton.mp hnew).symm (hother t jti f)

lemma Marks.revokeToken {t : ℤ} {jti : Bytes} {f : ℤ} (h : Marks tr s) (ht : s.clock ≤ t)
    (hwhole : Whole t) (hkeeps : keepsMark s.mem (.revokeToken t jti f) = true) :
    Marks (tr ++ [.revokeToken t jti f]) (s.markToken t jti f) where
  mem j g hg := by
    have hset := (Sessions.Revocations.revokeToken_tokens.mp hg).1
    rcases Dict.get_of_set hset with ⟨rfl, rfl⟩ | ⟨-, hset⟩
    · exact ⟨t, by simp⟩
    · obtain ⟨t', ht'⟩ := h.mem j g hset
      exact ⟨t', List.mem_append_left _ ht'⟩
  db j g hg := by
    simp only [State.markToken, Dict.get_set] at hg
    split_ifs at hg with hj
    · exact ⟨t, f, by simp [hj]⟩
    · exact (h.db j g hg).snoc
  kept t' j f' hmem hf' := by
    have hnew : ∀ g : ℤ, t ≤ g → (s.mem.tokens.set jti f).get j = some g →
        (s.mem.revokeToken t jti f).tokens.get j = some g := fun g hg hset =>
      Sessions.Revocations.revokeToken_tokens.mpr ⟨hset, hg⟩
    rcases List.mem_append.mp hmem with hold | hhere
    · obtain ⟨⟨g, hg, hle⟩, g', hg', hle'⟩ := h.kept t' j f' hold (ht.trans hf')
      have hstands : t ≤ g := hwhole.le_timestamptz.mp ((hwhole.le_timestamptz.mpr hf').trans hle)
      by_cases hj : j = jti
      · subst hj
        have hraised : timestamptz g ≤ f := by
          simpa [keepsMark, hg, not_lt.mpr hstands] using hkeeps
        have hmoved : timestamptz g ≤ timestamptz f := by
          simp only [timestamptz] at *
          omega
        have htf : t ≤ f := (hwhole.le_timestamptz.mpr hstands).trans hraised
        refine ⟨⟨f, hnew f htf (Dict.get_set_self _ _ _), hle.trans hmoved⟩, _,
          Dict.get_set_self _ _ _, ?_⟩
        exact (hle.trans hmoved).trans (Store.le_greatest _ _)
      · refine ⟨⟨g, hnew g hstands ?_, hle⟩, g', (Dict.get_set_ne _ hj _).trans hg', hle'⟩
        rw [Dict.get_set_ne _ hj, hg]
    · cases List.mem_singleton.mp hhere
      exact ⟨⟨f, hnew f hf' (Dict.get_set_self _ _ _), le_rfl⟩, _, Dict.get_set_self _ _ _,
        Store.le_greatest _ _⟩

lemma Marks.step (h : Marks tr s) (hm : Moves s e s') (hkeeps : keepsMark s.mem e = true) :
    Marks (tr ++ [e]) s' := by
  cases hm with
  | revokeToken ht hwhole _ => exact h.revokeToken ht hwhole hkeeps
  | revokeSubject ht hwhole _ =>
    exact h.idle (by simp) ht rfl (fun _ _ hf => hf) (fun _ _ hf _ => hf) hwhole
  | revokeTenant ht hwhole =>
    exact h.idle (by simp) ht rfl (fun _ _ hf => hf) (fun _ _ hf _ => hf) hwhole
  | deleteExpired ht hwhole =>
    refine h.idle (by simp) ht rfl (fun _ _ hf => Dict.get_of_retain hf) (fun _ _ hf hle => ?_)
      hwhole
    exact Dict.get_retain.mpr ⟨hf, by simpa using hle⟩

/-! ## Runs -/

lemma sameCutoffs_run {clock : ℤ} (hr : Run (StepOf step) (.start clock) tr s) : SameCutoffs s := by
  refine hr.invariant (fun _ s => SameCutoffs s) ?_ fun _ _ _ _ _ h hs => h.step (moves_of_step hs)
  refine ⟨fun _ _ _ => ?_, fun _ => ?_, fun _ _ hc => ?_⟩
  · simp [State.start, Sessions.Revocations.new, Store.Revocations.new]
  · simp [State.start, Sessions.Revocations.new, Store.Revocations.new]
  · simp [State.start, Store.Revocations.new] at hc

lemma marks_run {clock : ℤ}
    (hr : Run (Guarded (fun s e => keepsMark s.mem e = true) (StepOf step)) (.start clock) tr s) :
    Marks tr s := by
  refine hr.invariant Marks ?_ fun _ _ _ _ _ h hs => h.step (moves_of_step hs.2) hs.1
  refine ⟨fun _ _ hf => ?_, fun _ _ hf => ?_, fun _ _ _ hmem => by simp at hmem⟩
  · simp [State.start, Sessions.Revocations.new] at hf
  · simp [State.start, Store.Revocations.new] at hf

/-- As long as no call brings a mark forward that still stands, both backends answer a query
alike. -/
theorem backends_agree {clock now issuedAt : ℤ} {jti tenantID subjectID : Bytes}
    (hr : Run (Guarded (fun s e => keepsMark s.mem e = true) (StepOf step)) (.start clock) tr s)
    (hnow : s.clock ≤ now) (hsub : subjectID ≠ []) (hissued : Whole issuedAt)
    (hanswer : (s.db.isRevoked jti tenantID subjectID issuedAt).isSome = true)
    (hjti : ¬ Revoked tr jti ∨ ∃ t f, .revokeToken t jti f ∈ tr ∧ now ≤ f) :
    s.mem.isRevoked jti tenantID subjectID issuedAt =
      Store.RevocationAdapter.isRevoked s.db jti tenantID subjectID issuedAt := by
  have hmarks := marks_run hr
  have hcut : s.mem.cutOff tenantID subjectID issuedAt = _ :=
    (sameCutoffs_run hr.of_guarded).answer hsub hissued
  have hmark : (s.mem.tokens.get jti).isSome = (s.db.revokedTokens.get jti).isSome := by
    rcases hjti with hnever | ⟨t, f, hmem, hf⟩
    · have hm : s.mem.tokens.get jti = none := by
        refine Option.eq_none_iff_forall_ne_some.mpr fun f hf => hnever ?_
        obtain ⟨t, ht⟩ := hmarks.mem jti f hf
        exact ⟨t, f, ht⟩
      have hd : s.db.revokedTokens.get jti = none :=
        Option.eq_none_iff_forall_ne_some.mpr fun f hf => hnever (hmarks.db jti f hf)
      rw [hm, hd]
    · obtain ⟨⟨g, hg, -⟩, g', hg', -⟩ := hmarks.kept t jti f hmem (hnow.trans hf)
      rw [hg, hg']
      rfl
  unfold Store.Revocations.isRevoked at hanswer
  split_ifs at hanswer with hstore
  · rw [Store.RevocationAdapter.isRevoked, Store.Revocations.isRevoked, if_pos hstore,
      Option.getD_some, ← hmark, ← hcut, Sessions.Revocations.isRevoked, Bool.or_assoc]
    rfl
  · cases hanswer

namespace Worked

def raised : List Event :=
  [.revokeToken 0 (ascii "j") 10000, .revokeToken 0 (ascii "j") 100000,
    .revokeSubject 1000 (ascii "t1") (ascii "u1"), .revokeTenant 2000 (ascii "t2"),
    .deleteExpired 20000, .revokeToken 20000 (ascii "k") 100000]

def lowered : List Event :=
  [.revokeToken 0 (ascii "j") 100000, .revokeToken 0 (ascii "j") 10000,
    .revokeToken 20000 (ascii "k") 100000]

end Worked

theorem backends_agree_worked : ∃ s, Run (StepOf step) (.start 0) Worked.raised s ∧
    s.mem.isRevoked (ascii "j") (ascii "t1") (ascii "u1") 3000 =
      Store.RevocationAdapter.isRevoked s.db (ascii "j") (ascii "t1") (ascii "u1") 3000 := by
  obtain ⟨s, hr, hs⟩ := Run.exists_of_foldlM_any
    (fun s e => if keepsMark s.mem e = true then step s e else none)
    (fun s => decide (s.clock ≤ 20000) &&
      (s.db.isRevoked (ascii "j") (ascii "t1") (ascii "u1") 3000).isSome)
    (.start 0) Worked.raised (by decide +kernel)
  simp only [Bool.and_eq_true, decide_eq_true_eq] at hs
  have hg := hr.guarded (P := fun (s : State) e => keepsMark s.mem e = true)
  exact ⟨s, hg.of_guarded, backends_agree hg hs.1 (by decide) (by decide) hs.2
    (.inr ⟨0, 100000, by simp [Worked.raised], by decide⟩)⟩

/-- A second call brings the mark forward, the next one sweeps it, and only the database still
knows the token. -/
theorem backends_differ : ∃ s, Run (StepOf step) (.start 0) Worked.lowered s ∧ s.clock ≤ 20000 ∧
    .revokeToken 0 (ascii "j") 100000 ∈ Worked.lowered ∧
    s.db.isRevoked (ascii "j") (ascii "t1") (ascii "u1") 3000 = some true ∧
    s.mem.isRevoked (ascii "j") (ascii "t1") (ascii "u1") 3000 = false := by
  obtain ⟨s, hr, hs⟩ := Run.exists_of_foldlM_any step (fun s => decide (s.clock ≤ 20000) &&
      (s.db.isRevoked (ascii "j") (ascii "t1") (ascii "u1") 3000).any id &&
      !s.mem.isRevoked (ascii "j") (ascii "t1") (ascii "u1") 3000)
    (.start 0) Worked.lowered (by decide +kernel)
  simp only [Bool.and_eq_true, decide_eq_true_eq, Option.any_eq_true, Bool.not_eq_true'] at hs
  obtain ⟨⟨hclock, b, hb, hid⟩, hmem⟩ := hs
  exact ⟨s, hr, hclock, by simp [Worked.lowered], by rw [hb, show b = true from hid], hmem⟩

/-- No cutoff reaches what happens later. -/
lemma SameCutoffs.later (h : SameCutoffs s) {tenantID subjectID : Bytes} {issuedAt : ℤ}
    (hsub : subjectID ≠ []) (hlate : s.clock < issuedAt) :
    s.mem.cutOff tenantID subjectID issuedAt = false := by
  have hcaught : ∀ k, Sessions.Revocations.caughtBy issuedAt (s.db.cutoffs.get k) = false := by
    intro k
    cases hk : s.db.cutoffs.get k with
    | none => rfl
    | some c =>
      have hc := h.past k c hk
      simp only [Sessions.Revocations.caughtBy, Bool.not_eq_false', decide_eq_true_eq]
      omega
  simp [Sessions.Revocations.cutOff, h.subjects _ _ hsub, h.tenants, hcaught]

lemma mark_of_lowered {t f : ℤ} {jti : Bytes} {r : Sessions.Revocations}
    (h : keepsMark r (.revokeToken t jti f) = false) :
    ∃ held, r.tokens.get jti = some held ∧ f < timestamptz held ∧ t ≤ held := by
  cases hget : r.tokens.get jti with
  | none => simp [keepsMark, hget] at h
  | some held =>
    simp only [keepsMark, hget, Option.all_some, Bool.or_eq_false_iff, decide_eq_false_iff_not,
      not_le, not_lt] at h
    exact ⟨held, rfl, h⟩

/-- A call at or after a mark's instant sweeps away a mark that was brought before it. -/
lemma swept_of_lowered {r : Sessions.Revocations} {jti other : Bytes} {t f f' t' : ℤ}
    (hne : jti ≠ other) (hf : f < t') :
    ((r.revokeToken t jti f).revokeToken t' other f').tokens.get jti = none := by
  refine Option.eq_none_iff_forall_ne_some.mpr fun g hg => ?_
  obtain ⟨hset, hstays⟩ := Sessions.Revocations.revokeToken_tokens.mp hg
  rw [Dict.get_set_ne _ hne] at hset
  have hnew := (Sessions.Revocations.revokeToken_tokens.mp hset).1
  rw [Dict.get_set_self] at hnew
  exact absurd (Option.some.inj hnew ▸ hstays) (not_le.mpr hf)

/-- The condition is exact: after a call that brings a standing mark forward, the next
revocation can make the backends answer a query differently. -/
theorem lowering_tells {clock : ℤ}
    (hr : Run (Guarded (fun s e => keepsMark s.mem e = true) (StepOf step)) (.start clock) tr s)
    (hs : step s e = some s') (hlow : keepsMark s.mem e = false) :
    ∃ next s'' jti tenantID subjectID issuedAt, step s' next = some s'' ∧
      (∃ t f, .revokeToken t jti f ∈ tr ∧ s''.clock ≤ f) ∧ subjectID ≠ [] ∧ Whole issuedAt ∧
      s''.db.isRevoked jti tenantID subjectID issuedAt = some true ∧
      s''.mem.isRevoked jti tenantID subjectID issuedAt = false := by
  have hmarks := marks_run hr
  have hcutoffs := (sameCutoffs_run hr.of_guarded).step (moves_of_step hs)
  cases moves_of_step hs with
  | @revokeToken t jti f ht hwhole hstore =>
    obtain ⟨held, hheld, hf, hstands⟩ := mark_of_lowered hlow
    obtain ⟨since, hmem⟩ := hmarks.mem jti held hheld
    obtain ⟨-, row, hrow, hle⟩ := hmarks.kept since jti held hmem (ht.trans hstands)
    obtain ⟨other, hne, hother⟩ : ∃ other, jti ≠ other ∧ storable other = true := by
      by_cases hj : jti = []
      · exact ⟨ascii "a", hj ▸ by decide, by decide⟩
      · exact ⟨[], hj, by decide⟩
    have hreach : t ≤ timestamptz held := hwhole.le_timestamptz.mpr hstands
    have hround : Whole (timestamptz held) := by
      simp only [Whole, timestamptz]
      omega
    have hissued : Whole (timestamptz held + 1000) := by
      simp only [Whole, timestamptz]
      omega
    have hnext := step_revokeToken (s := s.markToken t jti f) (f := f) hreach hround hother
    have hswept : ((s.mem.revokeToken t jti f).revokeToken (timestamptz held) other f).tokens.get
        jti = none := swept_of_lowered hne hf
    refine ⟨_, _, jti, [], ascii "u", timestamptz held + 1000, hnext,
      ⟨since, held, hmem, Store.timestamptz_le held⟩, by decide, hissued, ?_, ?_⟩
    · have hstorable : [jti, [], ascii "u"].all storable = true := by
        rw [List.all_cons, hstore]
        decide
      rw [Store.Revocations.isRevoked, if_pos hstorable]
      simp [State.markToken, Dict.get_set_ne _ hne]
    · have hlater : ((s.markToken t jti f).markToken (timestamptz held) other f).mem.cutOff []
          (ascii "u") (timestamptz held + 1000) = false :=
        (hcutoffs.step (moves_of_step hnext)).later (by decide) (by simp [State.markToken])
      simp only [State.markToken] at hlater ⊢
      rw [Sessions.Revocations.isRevoked, hswept]
      simpa [Sessions.Revocations.cutOff] using hlater
  | _ => cases hlow

end AiAuth.RevocationStores
