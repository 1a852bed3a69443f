import AiAuth.Library.OneTime
import AiAuth.Library.Thinned
import AiAuth.Store

/-!
# Codes in memory and in the database

The in-memory store and the table take the same calls, in any interleaving of any replicas: an
adapter holds no state of its own. Both are compared with a ledger that sweeps nothing.
-/
namespace AiAuth.CodeStores
open Library Oidc
open Store (AuthCode CodeAdapter.issue CodeAdapter.redeem storable Whole)

/-! ## The ledger -/

/-- The calls that matter to a redemption. -/
inductive Op
  | issue (now : ℤ) (raw : Bytes) (g : Grant)
  | redeem (code : Bytes)

/-- What each open code stands for. An attempt closes its code, and nothing else does. -/
abbrev Ledger := Dict Bytes CodeEntry

def Ledger.apply (l : Ledger) : Op → Ledger
  | .issue now raw g => l.set (Base64.encode raw) ⟨g, now + codeTTL⟩
  | .redeem code => l.remove code

def Ledger.after (ops : List Op) : Ledger := ops.foldl Ledger.apply Dict.empty

/-- What an attempt gets for an entry: its grant, in time and for its client and redirect. -/
def settle (now : ℤ) (clientID redirectURI : Bytes) : Option CodeEntry → Option Grant
  | none => none
  | some e =>
    if e.expiresAt < now ∨ e.grant.clientID ≠ clientID ∨ e.grant.redirectURI ≠ redirectURI then none
    else some e.grant

section settle
variable {now : ℤ} {clientID redirectURI : Bytes} {found : Option CodeEntry} {g : Grant}

lemma settle_expired {e : CodeEntry} (h : e.expiresAt < now) :
    settle now clientID redirectURI (some e) = settle now clientID redirectURI none :=
  if_pos (.inl h)

lemma settle_some (h : settle now clientID redirectURI found = some g) :
    ∃ e, found = some e ∧ e.grant = g := by
  cases found with
  | none => cases h
  | some e =>
    simp only [settle] at h
    split_ifs at h
    exact ⟨e, rfl, Option.some.inj h⟩

end settle

/-- The code was issued for the grant. -/
def IssuedFor (ops : List Op) (code : Bytes) (g : Grant) : Prop :=
  ∃ now raw, .issue now raw g ∈ ops ∧ Base64.encode raw = code

/-- An open code stands for the grant it was issued for. -/
lemma Ledger.issued (ops : List Op) {code : Bytes} {e : CodeEntry}
    (h : (Ledger.after ops).get code = some e) : IssuedFor ops code e.grant := by
  induction ops using List.reverseRecOn generalizing e with
  | nil => simp [Ledger.after] at h
  | append_singleton ops op ih =>
    rw [Ledger.after, List.foldl_append] at h
    have hold : (Ledger.after ops).get code = some e → IssuedFor (ops ++ [op]) code e.grant := by
      intro hget
      obtain ⟨now, raw, hmem, hcode⟩ := ih hget
      exact ⟨now, raw, List.mem_append_left _ hmem, hcode⟩
    cases op with
    | issue now raw g =>
      change (Dict.set _ _ _).get code = _ at h
      rcases Dict.get_of_set h with ⟨rfl, rfl⟩ | ⟨-, h⟩
      · exact ⟨now, raw, by simp, rfl⟩
      · exact hold h
    | redeem code' => exact hold (Dict.get_of_remove h)

/-! ## Both stores -/

/-- The values of a grant can be stored as they are. -/
def Storable (g : Grant) : Prop :=
  [g.tenantID, g.subjectID, g.clientID, g.redirectURI, g.scope, g.nonce, g.codeChallenge].all
    storable = true ∧ Whole g.authTime

instance (g : Grant) : Decidable (Storable g) := inferInstanceAs (Decidable (_ ∧ _))

/-- A call with the answers of both stores. A grant is issued after the clock was read, and a
redemption reads it afterwards. -/
inductive Event
  | issue (t sweepAt now : ℤ) (raw : Option Bytes) (g : Grant) (mem db : Option Bytes)
  | redeem (t now : ℤ) (code clientID redirectURI : Bytes) (mem db : Option Grant)
  | deleteExpired (t : ℤ)

namespace Event

/-- The call without its place in time, its sweep and its answers. -/
def op : Event → Option Op
  | .issue _ _ now (some raw) g _ _ => some (.issue now raw g)
  | .redeem _ _ code _ _ _ _ => some (.redeem code)
  | _ => none

/-- The code of a redemption that got a grant. -/
def won : Event → Option Bytes
  | .redeem _ _ code _ _ (some _) _ => some code
  | _ => none

end Event

/-- The calls of a run, without the housekeeping. -/
def ops (tr : List Event) : List Op := tr.filterMap Event.op

structure State where
  clock : ℤ
  drawn : List Bytes
  mem : CodeStore
  db : Store.Codes

def State.start (clock : ℤ) : State := ⟨clock, [], .new, .new⟩

def State.fresh (s : State) (raw : Option Bytes) : Bool := raw.all fun b => !s.drawn.contains b

/-- One call on both stores, at one time of the database and with the same readings. -/
def step (s : State) : Event → Option State
  | .issue t sweepAt now raw g mem db =>
    let inMem := s.mem.issue sweepAt now raw g
    let inDb := CodeAdapter.issue s.db now raw g
    if s.clock ≤ t ∧ sweepAt ≤ t ∧ now ≤ t ∧ Whole now ∧ Storable g ∧ s.fresh raw ∧
        inMem.1 = mem ∧ inDb.1 = db then
      some ⟨t, raw.toList ++ s.drawn, inMem.2, inDb.2⟩
    else none
  | .redeem t now code clientID redirectURI mem db =>
    let inMem := s.mem.redeem now code clientID redirectURI
    let inDb := CodeAdapter.redeem s.db now code clientID redirectURI
    if s.clock ≤ t ∧ t ≤ now ∧ inMem.1.toOption = mem ∧ inDb.1.toOption = db then
      some ⟨t, s.drawn, inMem.2, inDb.2⟩
    else none
  | .deleteExpired t =>
    if s.clock ≤ t then some { s with clock := t, db := s.db.deleteExpired t } else none

/-- What a row stands for. -/
def entryOf (row : AuthCode) : CodeEntry :=
  ⟨Store.CodeAdapter.ofStore (Store.Codes.scan row), row.expiresAt⟩

section answers
variable {now : ℤ} {code clientID redirectURI : Bytes}

lemma mem_redeem (s : CodeStore) : (s.redeem now code clientID redirectURI).1.toOption =
    settle now clientID redirectURI (s.codes.get code) := by
  unfold CodeStore.redeem
  cases s.codes.get code with
  | none => rfl
  | some e =>
    by_cases hexp : e.expiresAt < now
    · simp [settle, hexp, Except.toOption]
    · by_cases hclient : e.grant.clientID = clientID
      · by_cases hredirect : e.grant.redirectURI = redirectURI <;>
          simp [settle, hexp, hclient, hredirect, Except.toOption]
      · simp [settle, hexp, hclient, Except.toOption]

lemma db_redeem (c : Store.Codes) (hcode : storable code = true) :
    (CodeAdapter.redeem c now code clientID redirectURI).1.toOption =
      settle now clientID redirectURI ((c.authCodes.get code).map entryOf) := by
  unfold CodeAdapter.redeem Store.Codes.redeem
  rw [hcode]
  cases c.authCodes.get code with
  | none => rfl
  | some row =>
    by_cases hexp : row.expiresAt < now
    · simp [settle, entryOf, hexp, Except.toOption]
    · by_cases hbound : row.clientID = clientID ∧ row.redirectURI = redirectURI
      · simp [settle, entryOf, hexp, hbound, Except.toOption, Store.CodeAdapter.ofStore,
          Store.Codes.scan]
      · have hrefused : row.clientID ≠ clientID ∨ row.redirectURI ≠ redirectURI :=
          not_and_or.mp hbound
        simp [settle, entryOf, hexp, hrefused, Except.toOption, Store.CodeAdapter.ofStore,
          Store.Codes.scan]

end answers

/-- The row an issue inserts. -/
def rowOf (now : ℤ) (g : Grant) : AuthCode :=
  ⟨g.tenantID, g.subjectID, g.clientID, g.redirectURI, g.scope, some g.nonce, g.codeChallenge,
    Store.timestamptz g.authTime, Store.timestamptz (now + codeTTL)⟩

/-- A row gives back what was stored, when the database can hold it. -/
lemma entryOf_rowOf {now : ℤ} {g : Grant} (hnow : Whole now) (hg : Storable g) :
    entryOf (rowOf now g) = ⟨g, now + codeTTL⟩ := by
  have hauth : Store.timestamptz g.authTime = g.authTime := hg.2
  have hexp : Store.timestamptz (now + codeTTL) = now + codeTTL := hnow.add_codeTTL
  simp [entryOf, rowOf, Store.CodeAdapter.ofStore, Store.Codes.scan, hauth, hexp]

lemma storable_encode (raw : Bytes) : storable (Base64.encode raw) = true := by
  have hutf : isUtf8 (Base64.encode raw) = true := isUtf8_of_ascii (Base64.encode_lt raw)
  simp [storable, hutf, Base64.zero_notMem_encode raw]

lemma db_issue {c : Store.Codes} {now : ℤ} {raw : Bytes} {g : Grant} (hg : Storable g)
    (hfree : c.authCodes.get (Base64.encode raw) = none) : CodeAdapter.issue c now (some raw) g =
      (some (Base64.encode raw), ⟨c.authCodes.set (Base64.encode raw) (rowOf now g)⟩) := by
  have hall : [Base64.encode raw, g.tenantID, g.subjectID, g.clientID, g.redirectURI, g.scope,
      g.nonce, g.codeChallenge].all storable = true := by
    rw [List.all_cons, storable_encode]
    exact hg.1
  have hins : c.insert (Base64.encode raw) (Store.CodeAdapter.toStore g) (now + codeTTL) =
      some ⟨c.authCodes.set (Base64.encode raw) (rowOf now g)⟩ := if_pos ⟨hall, hfree⟩
  simp only [CodeAdapter.issue, hins]

/-! ## Runs -/

/-- The code was drawn at random. -/
def Drawn (s : State) (code : Bytes) : Prop := ∃ raw ∈ s.drawn, Base64.encode raw = code

/-- What a call does to the states of both stores. -/
inductive Moves (s : State) : Event → State → Prop
  | noCode {t sweepAt now g} : s.clock ≤ t →
    Moves s (.issue t sweepAt now none g none none) { s with clock := t }
  | issue {t sweepAt now raw g mem db} : s.clock ≤ t → sweepAt ≤ t → Whole now → Storable g →
    ¬ Drawn s (Base64.encode raw) → (s.mem.issue sweepAt now (some raw) g).1 = mem →
    (CodeAdapter.issue s.db now (some raw) g).1 = db →
    Moves s (.issue t sweepAt now (some raw) g mem db) ⟨t, raw :: s.drawn,
      (s.mem.issue sweepAt now (some raw) g).2, (CodeAdapter.issue s.db now (some raw) g).2⟩
  | redeem {t now code clientID redirectURI mem db} : s.clock ≤ t → t ≤ now →
    (s.mem.redeem now code clientID redirectURI).1.toOption = mem →
    (CodeAdapter.redeem s.db now code clientID redirectURI).1.toOption = db →
    Moves s (.redeem t now code clientID redirectURI mem db) ⟨t, s.drawn,
      (s.mem.redeem now code clientID redirectURI).2,
      (CodeAdapter.redeem s.db now code clientID redirectURI).2⟩
  | deleteExpired {t} : s.clock ≤ t →
    Moves s (.deleteExpired t) { s with clock := t, db := s.db.deleteExpired t }

variable {s s' : State} {e : Event} {tr : List Event}

lemma not_drawn {raw : Bytes} (h : s.fresh (some raw) = true) : ¬ Drawn s (Base64.encode raw) := by
  rintro ⟨raw', hraw, henc⟩
  obtain rfl := Base64.encode_injective henc
  simp [State.fresh, hraw] at h

lemma moves_of_step (h : step s e = some s') : Moves s e s' := by
  cases e with
  | issue t sweepAt now raw g mem db =>
    simp only [step] at h
    split_ifs at h with hg
    obtain ⟨hclock, hsweep, -, hwhole, hstore, hfresh, hmem, hdb⟩ := hg
    obtain rfl := Option.some.inj h
    cases raw with
    | none =>
      subst hmem hdb
      exact .noCode hclock
    | some raw => exact .issue hclock hsweep hwhole hstore (not_drawn hfresh) hmem hdb
  | redeem t now code clientID redirectURI mem db =>
    simp only [step] at h
    split_ifs at h with hg
    obtain ⟨hclock, hnow, hmem, hdb⟩ := hg
    exact Option.some.inj h ▸ .redeem hclock hnow hmem hdb
  | deleteExpired t =>
    simp only [step] at h
    split_ifs at h with hclock
    exact Option.some.inj h ▸ .deleteExpired hclock

/-- Both stores are the ledger without entries that have expired, and what the ledger holds
was drawn. -/
structure Refines (l : Ledger) (s : State) : Prop where
  mem : Thinned id (fun e => e.expiresAt < s.clock) s.mem.codes l
  db : Thinned entryOf (fun e => e.expiresAt < s.clock) s.db.authCodes l
  drawn : ∀ code e, l.get code = some e → Drawn s code

/-- The ledger after a call. -/
def Ledger.next (l : Ledger) (e : Event) : Ledger := e.op.elim l l.apply

lemma ledger_snoc : Ledger.after (ops (tr ++ [e])) = (Ledger.after (ops tr)).next e := by
  rw [ops, OneTime.filterMap_snoc, Ledger.after, List.foldl_append]
  cases h : e.op <;> simp [Ledger.next, h, ops, Ledger.after]

variable {l : Ledger}

/-- The code of a new draw is free in both stores. -/
lemma Refines.free (h : Refines l s) {raw : Bytes} (hnew : ¬ Drawn s (Base64.encode raw)) :
    s.db.authCodes.get (Base64.encode raw) = none :=
  Option.eq_none_iff_forall_ne_some.mpr fun row hrow => hnew (h.drawn _ _ (h.db.sound _ row hrow))

/-- An attempt is answered by both stores as by the ledger. -/
lemma Refines.answer (h : Refines l s) {now : ℤ} {code clientID redirectURI : Bytes}
    (hnow : s.clock ≤ now) :
    (s.mem.redeem now code clientID redirectURI).1.toOption =
        settle now clientID redirectURI (l.get code) ∧
      (CodeAdapter.redeem s.db now code clientID redirectURI).1.toOption =
        settle now clientID redirectURI (l.get code) := by
  have hdead : ∀ e : CodeEntry, e.expiresAt < s.clock →
      settle now clientID redirectURI (some e) = settle now clientID redirectURI none :=
    fun e he => settle_expired (he.trans_le hnow)
  refine ⟨?_, ?_⟩
  · rw [mem_redeem, ← h.mem.answer code _ hdead, Option.map_id_fun, id]
  · by_cases hcode : storable code = true
    · rw [db_redeem _ hcode, ← h.db.answer code _ hdead]
    · have hnone : l.get code = none := by
        refine Option.eq_none_iff_forall_ne_some.mpr fun e he => ?_
        obtain ⟨raw, -, rfl⟩ := h.drawn code e he
        exact hcode (storable_encode raw)
      rw [hnone]
      simp [CodeAdapter.redeem, Store.Codes.redeem, hcode, Except.toOption, settle]

/-- Time passes and the codes that were drawn stay drawn. -/
lemma Moves.grows (hm : Moves s e s') :
    s.clock ≤ s'.clock ∧ ∀ code, Drawn s code → Drawn s' code := by
  cases hm with
  | issue ht =>
    refine ⟨ht, fun code ⟨raw, hraw, hcode⟩ => ⟨raw, List.mem_cons_of_mem _ hraw, hcode⟩⟩
  | noCode ht | redeem ht | deleteExpired ht => exact ⟨ht, fun _ h => h⟩

/-- What expires before the clock stays expired. -/
lemma Refines.later (h : Refines l s) (hm : Moves s e s') :
    Thinned id (fun e => e.expiresAt < s'.clock) s.mem.codes l ∧
      Thinned entryOf (fun e => e.expiresAt < s'.clock) s.db.authCodes l :=
  ⟨h.mem.mono fun _ he => he.trans_le hm.grows.1, h.db.mono fun _ he => he.trans_le hm.grows.1⟩

/-- Every call takes both stores along with the ledger. -/
lemma Refines.step (h : Refines l s) (hm : Moves s e s') : Refines (l.next e) s' := by
  obtain ⟨hmem, hdb⟩ := h.later hm
  have hdrawn : ∀ code e, l.get code = some e → Drawn s' code := fun code e he =>
    hm.grows.2 code (h.drawn code e he)
  cases hm with
  | noCode ht => exact ⟨hmem, hdb, hdrawn⟩
  | @issue t sweepAt now raw g _ _ ht hsweep hwhole hstore hnew _ _ =>
    rw [db_issue hstore (h.free hnew)]
    refine ⟨?_, hdb.set _ (entryOf_rowOf hwhole hstore), fun code e he => ?_⟩
    · refine (hmem.retain fun code e he => ?_).set _ rfl
      have hexp : e.expiresAt < sweepAt := by simpa using he
      exact hexp.trans_le hsweep
    · have hget := (Dict.get_set _ _ _ _).symm.trans he
      split_ifs at hget with hcode
      · exact ⟨raw, List.mem_cons_self, hcode.symm⟩
      · exact hdrawn code e hget
  | @redeem t now code clientID redirectURI _ _ ht _ _ _ =>
    refine ⟨hmem.remove CodeStore.get_redeem, hdb.remove fun x => ?_, fun x e he =>
      hdrawn x e (Dict.get_of_remove he)⟩
    rw [Store.CodeAdapter.redeem_snd]
    refine Store.Codes.get_redeem (fun hrow => ?_) x
    obtain ⟨row, hrow⟩ := Option.ne_none_iff_exists'.mp hrow
    obtain ⟨raw, -, rfl⟩ := h.drawn code _ (h.db.sound code row hrow)
    exact storable_encode raw
  | @deleteExpired t ht =>
    have hswept := hdb.retain (p := fun _ row => !(row.expiresAt < t)) fun code row hrow => by
      simpa [entryOf] using hrow
    exact ⟨hmem, hswept, hdrawn⟩

lemma refines_run {clock : ℤ} (hr : Run (StepOf step) (.start clock) tr s) :
    Refines (Ledger.after (ops tr)) s := by
  refine hr.invariant (fun tr s => Refines (Ledger.after (ops tr)) s) ?_ fun tr s e s' _ h hs => ?_
  · exact ⟨Thinned.empty, Thinned.empty, fun _ _ he => by simp [ops, Ledger.after] at he⟩
  · rw [ledger_snoc]
    exact h.step (moves_of_step hs)

/-- The codes that got a grant, against those that are open and those that were drawn. -/
lemma once_run {clock : ℤ} (hr : Run (StepOf step) (.start clock) tr s) :
    OneTime (tr.filterMap Event.won)
      (fun code => ((Ledger.after (ops tr)).get code).isSome = true) (Drawn s) := by
  refine hr.invariant (fun tr s => OneTime (tr.filterMap Event.won)
    (fun code => ((Ledger.after (ops tr)).get code).isSome = true) (Drawn s)) ?_
    fun tr s e s' hr h hs => ?_
  · exact OneTime.empty fun code hcode => by simp [ops, Ledger.after] at hcode
  · have hrefines := refines_run hr
    have hm := moves_of_step hs
    rw [ledger_snoc]
    have hgrows := hm.grows.2
    cases hm with
    | noCode _ | deleteExpired _ => exact h.idle rfl (fun _ hlive => hlive) hgrows
    | @issue t sweepAt now raw g _ _ _ _ _ _ hnew _ _ =>
      refine h.putAt rfl hnew ⟨raw, List.mem_cons_self, rfl⟩ (fun x hx => ?_) hgrows
      change ((Dict.set _ _ _).get x).isSome = true at hx
      rw [Dict.get_set] at hx
      split_ifs at hx with hcode
      · exact .inr hcode
      · exact .inl hx
    | @redeem t now code clientID redirectURI mem _ ht hnow hmem _ =>
      have hleft : ∀ x, (((Ledger.after (ops tr)).remove code).get x).isSome = true →
          ((Ledger.after (ops tr)).get x).isSome = true ∧ x ≠ code := by
        intro x hx
        rw [Dict.get_remove] at hx
        split_ifs at hx with hcode
        · cases hx
        · exact ⟨hx, hcode⟩
      cases mem with
      | none => exact h.idle rfl (fun x hx => (hleft x hx).1) hgrows
      | some g =>
        rw [(hrefines.answer (ht.trans hnow)).1] at hmem
        obtain ⟨e, he, -⟩ := settle_some hmem
        exact h.useAt rfl (by simp [he]) hleft hgrows

lemma drawn_of_issued {clock now : ℤ} {raw : Bytes} {g : Grant}
    (hr : Run (StepOf step) (.start clock) tr s) (h : .issue now raw g ∈ ops tr) :
    Drawn s (Base64.encode raw) := by
  refine hr.invariant (fun tr s => ∀ now raw g, .issue now raw g ∈ ops tr →
    Drawn s (Base64.encode raw)) (by simp [ops]) ?_ now raw g h
  intro tr s e s' _ ih hs now raw g hmem
  have hm := moves_of_step hs
  rw [ops, OneTime.filterMap_snoc] at hmem
  rcases List.mem_append.mp hmem with hold | hnew
  · exact hm.grows.2 _ (ih now raw g hold)
  · cases hm with
    | issue _ _ _ _ _ _ _ =>
      obtain ⟨-, rfl, -⟩ : now = _ ∧ raw = _ ∧ g = _ := by simpa [Event.op] using hnew
      exact ⟨raw, List.mem_cons_self, rfl⟩
    | noCode _ | redeem _ _ _ _ | deleteExpired _ => simp [Event.op] at hnew

/-- A drawn code that is not open gets nothing any more. -/
lemma closed_run {code : Bytes} (hr : Run (StepOf step) s tr s') (h : Refines l s)
    (hdrawn : Drawn s code) (hclosed : l.get code = none) :
    ∀ t now clientID redirectURI mem db, .redeem t now code clientID redirectURI mem db ∈ tr →
      mem = none ∧ db = none := by
  refine (hr.invariant (fun tr s' => (∃ l', Refines l' s' ∧ Drawn s' code ∧ l'.get code = none) ∧
    ∀ t now clientID redirectURI mem db, .redeem t now code clientID redirectURI mem db ∈ tr →
      mem = none ∧ db = none) ⟨⟨l, h, hdrawn, hclosed⟩, by simp⟩ ?_).2
  rintro tr s e s' - ⟨⟨l, hl, hd, hc⟩, ih⟩ hs
  have hm := moves_of_step hs
  refine ⟨⟨l.next e, hl.step hm, hm.grows.2 code hd, ?_⟩, ?_⟩
  · cases hm with
    | noCode _ | deleteExpired _ => exact hc
    | @issue t sweepAt now raw g _ _ _ _ _ _ hnew _ _ =>
      have hne : code ≠ Base64.encode raw := fun heq => hnew (heq ▸ hd)
      exact (Dict.get_set_ne _ hne _).trans hc
    | @redeem t now code' clientID redirectURI _ _ _ _ _ _ =>
      change (l.remove code').get code = none
      rw [Dict.get_remove]
      split_ifs
      · rfl
      · exact hc
  · intro t now clientID redirectURI mem db hmem
    rcases List.mem_append.mp hmem with hold | hnew
    · exact ih _ _ _ _ _ _ hold
    · obtain rfl := List.mem_singleton.mp hnew
      cases hm with
      | redeem ht hnow hmem hdb =>
        obtain ⟨hmem', hdb'⟩ := hl.answer (ht.trans hnow)
        rw [hmem', hc] at hmem
        rw [hdb', hc] at hdb
        exact ⟨hmem.symm, hdb.symm⟩

/-- Both stores answer every call alike, and a redemption as the calls before it decide, with no
regard to the housekeeping: with the grant as it was issued, or not at all. A code gets at most
one grant, and an attempt is the last one that can get it. -/
theorem stores_agree {clock : ℤ} (hr : Run (StepOf step) (.start clock) tr s) :
    (∀ t sweepAt now raw g mem db, .issue t sweepAt now raw g mem db ∈ tr →
      mem = raw.map Base64.encode ∧ db = raw.map Base64.encode) ∧
    (∀ pre post t now code clientID redirectURI mem db,
      tr = pre ++ .redeem t now code clientID redirectURI mem db :: post →
      mem = settle now clientID redirectURI ((Ledger.after (ops pre)).get code) ∧ db = mem ∧
      (∀ g, mem = some g → IssuedFor (ops pre) code g) ∧
      ((∃ g, IssuedFor (ops pre) code g) →
        ∀ t' now' clientID' redirectURI' mem' db',
          .redeem t' now' code clientID' redirectURI' mem' db' ∈ post →
          mem' = none ∧ db' = none)) ∧
    (tr.filterMap Event.won).Nodup := by
  refine ⟨?_, ?_, (once_run hr).nodup⟩
  · intro t sweepAt now raw g mem db hmem
    obtain ⟨pre, post, rfl⟩ := List.append_of_mem hmem
    obtain ⟨s₁, s₂, hpre, hs, -⟩ := hr.at_label pre post rfl
    have hrefines := refines_run hpre
    cases moves_of_step hs with
    | noCode _ => exact ⟨rfl, rfl⟩
    | issue _ _ hwhole hstore hnew hmem hdb =>
      rw [db_issue hstore (hrefines.free hnew)] at hdb
      exact ⟨hmem.symm, hdb.symm⟩
  · rintro pre post t now code clientID redirectURI mem db rfl
    obtain ⟨s₁, s₂, hpre, hs, hpost⟩ := hr.at_label pre post rfl
    have hrefines := refines_run hpre
    have hm := moves_of_step hs
    obtain ⟨hmem, hdb⟩ : mem = settle now clientID redirectURI ((Ledger.after (ops pre)).get code) ∧
        db = settle now clientID redirectURI ((Ledger.after (ops pre)).get code) := by
      cases hm with
      | redeem ht hnow hmem hdb =>
        obtain ⟨hmem', hdb'⟩ := hrefines.answer (ht.trans hnow)
        exact ⟨hmem.symm.trans hmem', hdb.symm.trans hdb'⟩
    refine ⟨hmem, hdb.trans hmem.symm, fun g hg => ?_, ?_⟩
    · obtain ⟨e, he, rfl⟩ := settle_some (hmem.symm.trans hg)
      exact Ledger.issued _ he
    · rintro ⟨g, since, raw, hissue, rfl⟩
      have hdrawn := drawn_of_issued hpre hissue
      refine closed_run hpost (hrefines.step hm) (hm.grows.2 _ hdrawn) ?_
      exact Dict.get_remove_self _ _

namespace Worked

def grant : Grant :=
  { clientID := ascii "app", redirectURI := ascii "https://app.example/cb", scope := ascii "openid",
    nonce := [], codeChallenge := ascii "challenge", subjectID := ascii "u1",
    tenantID := ascii "t1", authTime := 4000 }

def code (n : UInt8) : Bytes := Base64.encode (List.replicate 32 n)

def issued (t : ℤ) (n : UInt8) : Event :=
  .issue t t t (some (List.replicate 32 n)) grant (some (code n)) (some (code n))

def redeemed (t : ℤ) (n : UInt8) (client : String) (g : Option Grant) : Event :=
  .redeem t t (code n) (ascii client) (ascii "https://app.example/cb") g g

/-- A code that is redeemed, one that a wrong client burns, and one that expires. -/
def story : List Event :=
  [issued 5000 1, issued 6000 2, issued 7000 3, .deleteExpired 8000,
    redeemed 9000 1 "app" (some grant), redeemed 10000 1 "app" none,
    redeemed 11000 2 "other" none, redeemed 12000 2 "app" none,
    issued (7000 + codeTTL + 1000) 4, redeemed (7000 + codeTTL + 2000) 3 "app" none]

end Worked

theorem stores_agree_worked : (Worked.story.filterMap Event.won).Nodup := by
  obtain ⟨s, hr⟩ := Run.exists_of_foldlM step (.start 0) Worked.story (by decide +kernel)
  exact (stores_agree hr).2.2

end AiAuth.CodeStores
