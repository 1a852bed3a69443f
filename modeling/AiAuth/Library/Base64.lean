import AiAuth.Library.Bytes
import Mathlib.Tactic.FinCases

/-!
# Unpadded base64url

One encoder and two decoders over the alphabet `A-Z a-z 0-9 - _`. The lenient
decoder skips carriage returns and line feeds and ignores the unused low bits of
the last symbol; the strict decoder does neither. Padding is refused by both.
-/
namespace AiAuth.Library.Base64

/-- The symbol of a six-bit value. -/
def symbol (i : ℕ) : UInt8 :=
  if i < 26 then UInt8.ofNat (65 + i)
  else if i < 52 then UInt8.ofNat (71 + i)
  else if i < 62 then UInt8.ofNat (i - 4)
  else if i = 62 then 45
  else 95

/-- The six-bit value of a symbol. -/
def value (c : UInt8) : Option ℕ :=
  let n := c.toNat
  if 65 ≤ n ∧ n ≤ 90 then some (n - 65)
  else if 97 ≤ n ∧ n ≤ 122 then some (n - 71)
  else if 48 ≤ n ∧ n ≤ 57 then some (n + 4)
  else if n = 45 then some 62
  else if n = 95 then some 63
  else none

/-- The six-bit values of a byte string; the last one is filled with zero bits. -/
def sextets : Bytes → List ℕ
  | [] => []
  | [a] => [a.toNat / 4, a.toNat % 4 * 16]
  | [a, b] => [a.toNat / 4, a.toNat % 4 * 16 + b.toNat / 16, b.toNat % 16 * 4]
  | a :: b :: c :: rest =>
    (a.toNat / 4) :: (a.toNat % 4 * 16 + b.toNat / 16) :: (b.toNat % 16 * 4 + c.toNat / 64) ::
      (c.toNat % 64) :: sextets rest

def encode (bs : Bytes) : Bytes := (sextets bs).map symbol

/-- Reassemble bytes from six-bit values. A single left-over value is an error; the
strict decoder also wants the unused low bits of the last value to be zero. -/
def unsextets (strict : Bool) : List ℕ → Option Bytes
  | [] => some []
  | [_] => none
  | [p, q] => if strict && q % 16 != 0 then none else some [UInt8.ofNat (p * 4 + q / 16)]
  | [p, q, r] =>
    if strict && r % 4 != 0 then none
    else some [UInt8.ofNat (p * 4 + q / 16), UInt8.ofNat (q % 16 * 16 + r / 4)]
  | p :: q :: r :: s :: rest =>
    (unsextets strict rest).map fun bs =>
      UInt8.ofNat (p * 4 + q / 16) :: UInt8.ofNat (q % 16 * 16 + r / 4) ::
        UInt8.ofNat (r % 4 * 64 + s) :: bs

/-- The lenient decoder. -/
def decode (s : Bytes) : Option Bytes :=
  ((s.filter fun c => c != 10 && c != 13).mapM value).bind (unsextets false)

/-- The strict decoder. -/
def decodeStrict (s : Bytes) : Option Bytes := (s.mapM value).bind (unsextets true)

lemma value_symbol {i : ℕ} (h : i < 64) : value (symbol i) = some i := by
  have hall : ∀ i : Fin 64, value (symbol i.val) = some i.val := by decide
  exact hall ⟨i, h⟩

lemma symbol_ne {i : ℕ} (h : i < 64) : symbol i ≠ 10 ∧ symbol i ≠ 13 ∧ symbol i ≠ 46 := by
  have hall : ∀ i : Fin 64, symbol i.val ≠ 10 ∧ symbol i.val ≠ 13 ∧ symbol i.val ≠ 46 := by
    decide
  exact hall ⟨i, h⟩

lemma sextets_lt (bs : Bytes) : ∀ i ∈ sextets bs, i < 64 := by
  induction bs using sextets.induct with
  | case1 => simp [sextets]
  | case2 a =>
    have ha := a.toNat_lt
    simp only [sextets, List.mem_cons, List.not_mem_nil, or_false]
    rintro i (rfl | rfl) <;> omega
  | case3 a b =>
    have ha := a.toNat_lt
    have hb := b.toNat_lt
    simp only [sextets, List.mem_cons, List.not_mem_nil, or_false]
    rintro i (rfl | rfl | rfl) <;> omega
  | case4 a b c rest ih =>
    have ha := a.toNat_lt
    have hb := b.toNat_lt
    have hc := c.toNat_lt
    simp only [sextets, List.mem_cons]
    rintro i (rfl | rfl | rfl | rfl | hi)
    all_goals first | omega | exact ih i hi

lemma ofNat_eq {a : UInt8} {n : ℕ} (h : n = a.toNat) : UInt8.ofNat n = a := by
  rw [h, UInt8.ofNat_toNat]

lemma unsextets_sextets (strict : Bool) (bs : Bytes) :
    unsextets strict (sextets bs) = some bs := by
  induction bs using sextets.induct with
  | case1 => rfl
  | case2 a =>
    have ha := a.toNat_lt
    have hlow : a.toNat % 4 * 16 % 16 = 0 := by omega
    simp only [sextets, unsextets, hlow, bne_self_eq_false, Bool.and_false, Bool.false_eq_true,
      if_false]
    rw [ofNat_eq (a := a) (by omega)]
  | case3 a b =>
    have ha := a.toNat_lt
    have hb := b.toNat_lt
    have hlow : b.toNat % 16 * 4 % 4 = 0 := by omega
    simp only [sextets, unsextets, hlow, bne_self_eq_false, Bool.and_false, Bool.false_eq_true,
      if_false]
    rw [ofNat_eq (a := a) (by omega), ofNat_eq (a := b) (by omega)]
  | case4 a b c rest ih =>
    have ha := a.toNat_lt
    have hb := b.toNat_lt
    have hc := c.toNat_lt
    simp only [sextets, unsextets, ih, Option.map_some]
    rw [ofNat_eq (a := a) (by omega), ofNat_eq (a := b) (by omega), ofNat_eq (a := c) (by omega)]

lemma mapM_value_symbol (l : List ℕ) (h : ∀ i ∈ l, i < 64) :
    (l.map symbol).mapM value = some l := by
  induction l with
  | nil => rfl
  | cons i l ih =>
    simp only [List.mem_cons, forall_eq_or_imp] at h
    rw [List.map_cons, List.mapM_cons, value_symbol h.1, ih h.2]
    rfl

/-- Neither a line break nor a full stop occurs in encoded text. -/
theorem encode_symbols (bs : Bytes) : ∀ c ∈ encode bs, c ≠ 10 ∧ c ≠ 13 ∧ c ≠ 46 := by
  intro c hc
  obtain ⟨i, hi, rfl⟩ := List.mem_map.mp hc
  exact symbol_ne (sextets_lt bs i hi)

theorem zero_notMem_encode (bs : Bytes) : 0 ∉ encode bs := by
  intro h
  obtain ⟨i, hi, hz⟩ := List.mem_map.mp h
  have hval := value_symbol (sextets_lt bs i hi)
  rw [hz] at hval
  cases hval

theorem encode_lt (bs : Bytes) : ∀ c ∈ encode bs, c < 128 := by
  intro c hc
  obtain ⟨i, hi, rfl⟩ := List.mem_map.mp hc
  have hall : ∀ i : Fin 64, symbol i.val < 128 := by decide
  exact hall ⟨i, sextets_lt bs i hi⟩

@[simp] theorem decode_encode (bs : Bytes) : decode (encode bs) = some bs := by
  have hfilter : (encode bs).filter (fun c => c != 10 && c != 13) = encode bs := by
    refine List.filter_eq_self.mpr fun c hc => ?_
    have h := encode_symbols bs c hc
    simp [h.1, h.2.1]
  rw [decode, hfilter, encode, mapM_value_symbol _ (sextets_lt bs), Option.bind_some,
    unsextets_sextets]

@[simp] theorem decodeStrict_encode (bs : Bytes) : decodeStrict (encode bs) = some bs := by
  rw [decodeStrict, encode, mapM_value_symbol _ (sextets_lt bs), Option.bind_some,
    unsextets_sextets]

theorem encode_injective : Function.Injective encode := by
  intro a b h
  have hd := congrArg decode h
  simpa using hd

theorem encode_ne_nil {bs : Bytes} (h : bs ≠ []) : encode bs ≠ [] :=
  fun he => h (encode_injective he)

theorem encode_length (bs : Bytes) : (encode bs).length = (4 * bs.length + 2) / 3 := by
  rw [encode, List.length_map]
  induction bs using sextets.induct with
  | case1 => rfl
  | case2 a => simp [sextets]
  | case3 a b => simp [sextets]
  | case4 a b c rest ih => simp only [sextets, List.length_cons, ih]; omega

end AiAuth.Library.Base64
