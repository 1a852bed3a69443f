import AiAuth.Library.Bytes
import Mathlib.Algebra.BigOperators.Group.List.Basic
import Mathlib.Algebra.Order.BigOperators.Group.List

/-!
# Objects of strings as JSON text

A reader for JSON objects all of whose members are strings, with white space and escapes, and
the texts that come of writing keys and values between quotes as they are. A text is at least as
long as what it says, and where it is not longer it was written without an escape.
-/
namespace AiAuth.Library.JsonText

/-! ## The reader -/

def isSpace (b : UInt8) : Bool := b = 9 || b = 10 || b = 13 || b = 32

def skip (text : Bytes) : Bytes := text.dropWhile isSpace

/-- The text after white space and the byte `c`. -/
def expect (c : UInt8) (text : Bytes) : Option Bytes :=
  match skip text with
  | [] => none
  | b :: rest => if b = c then some rest else none

def hexDigit (b : UInt8) : Option ℕ :=
  if ch '0' ≤ b ∧ b ≤ ch '9' then some (b.toNat - 48)
  else if ch 'a' ≤ b ∧ b ≤ ch 'f' then some (b.toNat - 87)
  else if ch 'A' ≤ b ∧ b ≤ ch 'F' then some (b.toNat - 55)
  else none

/-- Four hexadecimal digits. -/
def hexFour : Bytes → Option (ℕ × Bytes)
  | a :: b :: c :: d :: rest =>
    match hexDigit a, hexDigit b, hexDigit c, hexDigit d with
    | some a, some b, some c, some d => some (a * 4096 + b * 256 + c * 16 + d, rest)
    | _, _, _, _ => none
  | _ => none

/-- A code point in UTF-8. -/
def utf8 (n : ℕ) : Bytes :=
  if n < 0x80 then [UInt8.ofNat n]
  else if n < 0x800 then [UInt8.ofNat (0xC0 + n / 64), UInt8.ofNat (0x80 + n % 64)]
  else if n < 0x10000 then
    [UInt8.ofNat (0xE0 + n / 4096), UInt8.ofNat (0x80 + n / 64 % 64), UInt8.ofNat (0x80 + n % 64)]
  else [UInt8.ofNat (0xF0 + n / 262144), UInt8.ofNat (0x80 + n / 4096 % 64),
    UInt8.ofNat (0x80 + n / 64 % 64), UInt8.ofNat (0x80 + n % 64)]

/-- The second half of a surrogate pair. -/
def readLow (high : ℕ) : Bytes → Option (Bytes × Bytes)
  | a :: b :: rest =>
    if a = ch '\\' ∧ b = ch 'u' then
      match hexFour rest with
      | some (low, rest) =>
        if 0xDC00 ≤ low ∧ low ≤ 0xDFFF then
          some (utf8 (0x10000 + (high - 0xD800) * 1024 + (low - 0xDC00)), rest)
        else none
      | none => none
    else none
  | _ => none

/-- A code point, or a surrogate pair. -/
def readUnicode (text : Bytes) : Option (Bytes × Bytes) :=
  match hexFour text with
  | none => none
  | some (n, rest) =>
    if n < 0xD800 ∨ 0xDFFF < n then some (utf8 n, rest)
    else if n < 0xDC00 then readLow n rest
    else none

/-- The escapes of one letter. -/
def escapes : List (UInt8 × UInt8) :=
  [(ch '"', ch '"'), (ch '\\', ch '\\'), (ch '/', ch '/'), (ch 'b', 8), (ch 'f', 12), (ch 'n', 10),
    (ch 'r', 13), (ch 't', 9)]

def readEscape : Bytes → Option (Bytes × Bytes)
  | [] => none
  | e :: rest =>
    if e = ch 'u' then readUnicode rest
    else match escapes.lookup e with
      | some c => some ([c], rest)
      | none => none

/-- One character of a string, in the bytes it stands for. -/
def readChar (b : UInt8) (rest : Bytes) : Option (Bytes × Bytes) :=
  if b = ch '\\' then readEscape rest else if b < 32 then none else some ([b], rest)

/-- A string from behind its opening quote. -/
def readString : ℕ → Bytes → Option (Bytes × Bytes)
  | 0, _ => none
  | _ + 1, [] => none
  | n + 1, b :: rest =>
    if b = ch '"' then some ([], rest)
    else match readChar b rest with
      | none => none
      | some (c, rest) =>
        match readString n rest with
        | none => none
        | some (v, rest) => some (c ++ v, rest)

def readText (text : Bytes) : Option (Bytes × Bytes) :=
  match expect (ch '"') text with
  | none => none
  | some rest => readString rest.length rest

def readMember (text : Bytes) : Option ((Bytes × Bytes) × Bytes) :=
  match readText text with
  | none => none
  | some (key, rest) =>
    match expect (ch ':') rest with
    | none => none
    | some rest =>
      match readText rest with
      | none => none
      | some (value, rest) => some ((key, value), rest)

/-- Members up to the closing brace. -/
def readMembers : ℕ → Bytes → Option (List (Bytes × Bytes) × Bytes)
  | 0, _ => none
  | n + 1, text =>
    match readMember text with
    | none => none
    | some (m, rest) =>
      match expect (ch '}') rest with
      | some rest => some ([m], rest)
      | none =>
        match expect (ch ',') rest with
        | none => none
        | some rest =>
          match readMembers n rest with
          | none => none
          | some (ms, rest) => some (m :: ms, rest)

/-- The members of an object that is the whole text. -/
def readObject (text : Bytes) : Option (List (Bytes × Bytes)) :=
  match expect (ch '{') text with
  | none => none
  | some text =>
    match expect (ch '}') text with
    | some rest => if skip rest = [] then some [] else none
    | none =>
      match readMembers text.length text with
      | none => none
      | some (ms, rest) => if skip rest = [] then some ms else none

/-! ## The writer -/

/-- Text that stands between quotes for itself. -/
def Plain (v : Bytes) : Prop := ∀ b ∈ v, b ≠ ch '"' ∧ b ≠ ch '\\' ∧ 32 ≤ b

instance (v : Bytes) : Decidable (Plain v) :=
  inferInstanceAs (Decidable (∀ b ∈ v, b ≠ ch '"' ∧ b ≠ ch '\\' ∧ 32 ≤ b))

def quote (v : Bytes) : Bytes := ch '"' :: (v ++ [ch '"'])

def writeMember (m : Bytes × Bytes) : Bytes := quote m.1 ++ ch ':' :: quote m.2

def writeMembers : List (Bytes × Bytes) → Bytes
  | [] => [ch '}']
  | [m] => writeMember m ++ [ch '}']
  | m :: ms => writeMember m ++ ch ',' :: writeMembers ms

/-- The object with keys and values as they are. -/
def write (ms : List (Bytes × Bytes)) : Bytes := ch '{' :: writeMembers ms

/-- What the members take up between the braces, one of which is counted. -/
def size (ms : List (Bytes × Bytes)) : ℕ := (ms.map fun m => m.1.length + m.2.length + 6).sum

def AllPlain (ms : List (Bytes × Bytes)) : Prop := ∀ m ∈ ms, Plain m.1 ∧ Plain m.2

/-! ## What reading costs -/

/-- Reading from `text` to `rest` takes at least `cost` bytes, and `P` holds if it takes no more. -/
def Takes (cost : ℕ) (text rest : Bytes) (P : Prop) : Prop :=
  cost + rest.length ≤ text.length ∧ (text.length ≤ cost + rest.length → P)

namespace Takes
variable {m n : ℕ} {text mid rest : Bytes} {P Q : Prop}

theorem trans (h : Takes m text mid P) (h' : Takes n mid rest Q) :
    Takes (m + n) text rest (P ∧ Q) := by
  obtain ⟨hle, hP⟩ := h
  obtain ⟨hle', hQ⟩ := h'
  exact ⟨by omega, fun hlen => ⟨hP (by omega), hQ (by omega)⟩⟩

theorem imp (h : Takes m text rest P) (hPQ : P → Q) : Takes m text rest Q :=
  ⟨h.1, fun hlen => hPQ (h.2 hlen)⟩

/-- More than the cost was taken, so nothing needs to hold. -/
theorem of_lt (h : m + rest.length < text.length) : Takes m text rest P :=
  ⟨h.le, fun hlen => absurd hlen (by omega)⟩

end Takes

section takes
variable {n : ℕ} {b c : UInt8} {text rest v : Bytes} {ms : List (Bytes × Bytes)}

lemma hexFour_length (h : hexFour text = some (n, rest)) : text.length = rest.length + 4 := by
  unfold hexFour at h
  split at h
  · split at h
    · obtain ⟨-, rfl⟩ := Prod.mk.inj (Option.some.inj h)
      rfl
    · cases h
  · cases h

lemma utf8_length (n : ℕ) : (utf8 n).length ≤ 4 := by
  unfold utf8
  split_ifs <;> simp

lemma utf8_length_of_lt (h : n < 0x10000) : (utf8 n).length ≤ 3 := by
  unfold utf8
  split_ifs <;> simp

lemma hexDigit_lt (h : hexDigit b = some n) : n < 16 := by
  have hle : ∀ k : ℕ, k < 256 → b ≤ UInt8.ofNat k → b.toNat ≤ k := by
    intro k hk hb
    rw [UInt8.le_iff_toNat_le, UInt8.toNat_ofNat_of_lt' hk] at hb
    exact hb
  unfold hexDigit at h
  split_ifs at h with h₁ h₂ h₃
  · have hnine := hle 57 (by omega) h₁.2
    have hvalue := Option.some.inj h
    omega
  · have hf := hle 102 (by omega) h₂.2
    have hvalue := Option.some.inj h
    omega
  · have hf := hle 70 (by omega) h₃.2
    have hvalue := Option.some.inj h
    omega

lemma hexFour_lt (h : hexFour text = some (n, rest)) : n < 0x10000 := by
  unfold hexFour at h
  split at h
  · split at h
    next ha hb hc hd =>
      obtain ⟨rfl, -⟩ := Prod.mk.inj (Option.some.inj h)
      have := hexDigit_lt ha
      have := hexDigit_lt hb
      have := hexDigit_lt hc
      have := hexDigit_lt hd
      omega
    · cases h
  · cases h

/-- An escape is longer than what it stands for. -/
lemma readUnicode_length (h : readUnicode text = some (v, rest)) :
    v.length + rest.length < text.length := by
  unfold readUnicode at h
  split at h
  · cases h
  next n rest' hfour =>
    have hlen := hexFour_length hfour
    split_ifs at h
    · obtain ⟨rfl, rfl⟩ := Prod.mk.inj (Option.some.inj h)
      have := utf8_length_of_lt (hexFour_lt hfour)
      omega
    · unfold readLow at h
      split at h
      · split_ifs at h
        split at h
        next low rest'' hlow =>
          split_ifs at h
          obtain ⟨rfl, rfl⟩ := Prod.mk.inj (Option.some.inj h)
          have hlen' := hexFour_length hlow
          have := utf8_length (0x10000 + (n - 0xD800) * 1024 + (low - 0xDC00))
          simp only [List.length_cons] at hlen
          omega
        · cases h
      · cases h

lemma readEscape_length (h : readEscape text = some (v, rest)) :
    v.length + rest.length ≤ text.length := by
  unfold readEscape at h
  split at h
  · cases h
  next e rest' =>
    rw [List.length_cons]
    split_ifs at h
    · have := readUnicode_length h
      omega
    · split at h
      · obtain ⟨rfl, rfl⟩ := Prod.mk.inj (Option.some.inj h)
        simp [Nat.add_comm]
      · cases h

/-- A character stands for itself, or it is longer than what it stands for. -/
lemma readChar_takes (hb : b ≠ ch '"') (h : readChar b text = some (v, rest)) :
    Takes v.length (b :: text) rest (v = [b] ∧ text = rest ∧ Plain [b]) := by
  unfold readChar at h
  split_ifs at h with hescape hcontrol
  · refine Takes.of_lt ?_
    have := readEscape_length h
    rw [List.length_cons]
    omega
  · obtain ⟨rfl, rfl⟩ := Prod.mk.inj (Option.some.inj h)
    refine ⟨by simp [Nat.add_comm], fun _ => ⟨rfl, rfl, fun c hc => ?_⟩⟩
    rw [List.mem_singleton.mp hc]
    exact ⟨hb, hescape, UInt8.not_lt.mp hcontrol⟩

lemma readString_takes (h : readString n text = some (v, rest)) :
    Takes (v.length + 1) text rest (Plain v) := by
  induction n generalizing text v with
  | zero => cases h
  | succ n ih =>
    cases text with
    | nil => cases h
    | cons b text =>
      rw [readString] at h
      split_ifs at h with hquote
      · obtain ⟨rfl, rfl⟩ := Prod.mk.inj (Option.some.inj h)
        exact ⟨by simp [Nat.add_comm], fun _ => by simp [Plain]⟩
      · split at h
        · cases h
        next c mid hchar =>
          split at h
          · cases h
          next v' rest' hrest =>
            obtain ⟨rfl, rfl⟩ := Prod.mk.inj (Option.some.inj h)
            have hboth := (readChar_takes hquote hchar).trans (ih hrest)
            rw [List.length_append, Nat.add_assoc]
            refine hboth.imp fun hp => ?_
            obtain ⟨⟨rfl, -, hplain⟩, hplain'⟩ := hp
            exact List.forall_mem_append.mpr ⟨hplain, hplain'⟩

lemma skip_length_le (text : Bytes) : (skip text).length ≤ text.length :=
  (List.dropWhile_sublist _).length_le

lemma expect_takes (h : expect c text = some rest) : Takes 1 text rest True := by
  have hle := skip_length_le text
  unfold expect at h
  split at h
  · cases h
  next b rest' hskip =>
    split_ifs at h
    rw [hskip, List.length_cons] at hle
    exact ⟨by rw [← Option.some.inj h]; omega, fun _ => trivial⟩

lemma readText_takes (h : readText text = some (v, rest)) :
    Takes (v.length + 2) text rest (Plain v) := by
  unfold readText at h
  split at h
  · cases h
  next mid hexpect =>
    have hboth := (expect_takes hexpect).trans (readString_takes h)
    rw [Nat.add_comm 1] at hboth
    exact hboth.imp And.right

lemma readMember_takes {m : Bytes × Bytes} (h : readMember text = some (m, rest)) :
    Takes (m.1.length + m.2.length + 5) text rest (Plain m.1 ∧ Plain m.2) := by
  unfold readMember at h
  split at h
  · cases h
  next key mid hkey =>
    split at h
    · cases h
    next mid' hcolon =>
      split at h
      · cases h
      next value mid'' hvalue =>
        obtain ⟨rfl, rfl⟩ := Prod.mk.inj (Option.some.inj h)
        have hfront := (readText_takes hkey).trans (expect_takes hcolon)
        have hall := hfront.trans (readText_takes hvalue)
        rw [show key.length + value.length + 5 = key.length + 2 + 1 + (value.length + 2) by omega]
        exact hall.imp fun hp => ⟨hp.1.1, hp.2⟩

lemma readMembers_takes (h : readMembers n text = some (ms, rest)) :
    Takes (size ms) text rest (AllPlain ms) := by
  induction n generalizing text ms with
  | zero => cases h
  | succ n ih =>
    rw [readMembers] at h
    split at h
    · cases h
    next m mid hmember =>
      have hm := readMember_takes hmember
      split at h
      next hclose =>
        obtain ⟨rfl, rfl⟩ := Prod.mk.inj (Option.some.inj h)
        simpa [size, AllPlain] using hm.trans (expect_takes hclose)
      · split at h
        · cases h
        next mid' hcomma =>
          split at h
          · cases h
          next ms' rest' hrest =>
            obtain ⟨rfl, rfl⟩ := Prod.mk.inj (Option.some.inj h)
            have hall := (hm.trans (expect_takes hcomma)).trans (ih hrest)
            rw [size, List.map_cons, List.sum_cons]
            refine hall.imp fun hp => List.forall_mem_cons.mpr ⟨hp.1.1, hp.2⟩

/-- A text without white space or escapes is the shortest for its members. -/
theorem readObject_takes (hne : ms ≠ []) (h : readObject text = some ms) :
    Takes (1 + size ms) text [] (AllPlain ms) := by
  unfold readObject at h
  split at h
  · cases h
  next mid hopen =>
    split at h
    · split_ifs at h
      exact absurd (Option.some.inj h).symm hne
    · split at h
      · cases h
      next ms' rest' hmembers =>
        split_ifs at h
        obtain rfl := Option.some.inj h
        obtain ⟨hle, hplain⟩ := (expect_takes hopen).trans (readMembers_takes hmembers)
        exact ⟨by rw [List.length_nil]; omega, fun hlen => (hplain (by simp at hlen; omega)).2⟩

end takes

/-! ## Reading what was written -/

section write
variable {b c : UInt8} {v rest : Bytes} {m : Bytes × Bytes} {ms ms' : List (Bytes × Bytes)}

lemma expect_self (hc : isSpace c = false) : expect c (c :: rest) = some rest := by
  simp [expect, skip, hc]

lemma expect_of_ne (hb : isSpace b = false) (hne : b ≠ c) : expect c (b :: rest) = none := by
  simp [expect, skip, hb, hne]

lemma readString_plain (hv : Plain v) (n : ℕ) (hn : v.length < n) :
    readString n (v ++ ch '"' :: rest) = some (v, rest) := by
  induction v generalizing n with
  | nil =>
    obtain ⟨n, rfl⟩ := Nat.exists_eq_succ_of_ne_zero (Nat.ne_of_gt hn)
    simp [readString]
  | cons b v ih =>
    obtain ⟨n, rfl⟩ := Nat.exists_eq_succ_of_ne_zero (Nat.ne_of_gt (Nat.zero_lt_of_lt hn))
    obtain ⟨⟨hquote, hescape, hcontrol⟩, hv⟩ := List.forall_mem_cons.mp hv
    have hchar : readChar b (v ++ ch '"' :: rest) = some ([b], v ++ ch '"' :: rest) := by
      rw [readChar, if_neg hescape, if_neg (UInt8.not_lt.mpr hcontrol)]
    rw [List.cons_append, readString, if_neg hquote, hchar]
    dsimp only
    rw [ih hv n (by simpa using hn)]
    rfl

lemma readText_quote (hv : Plain v) : readText (quote v ++ rest) = some (v, rest) := by
  rw [readText, quote, List.cons_append, expect_self (by decide), List.append_assoc]
  exact readString_plain hv _ (by simp)

lemma readMember_write (hkey : Plain m.1) (hvalue : Plain m.2) :
    readMember (writeMember m ++ rest) = some (m, rest) := by
  rw [readMember, writeMember, List.append_assoc, readText_quote hkey]
  dsimp only
  rw [List.cons_append, expect_self (by decide)]
  dsimp only
  rw [readText_quote hvalue]

lemma readMembers_write (hne : ms ≠ []) (hms : AllPlain ms) (n : ℕ) (hn : ms.length ≤ n) :
    readMembers n (writeMembers ms) = some (ms, []) := by
  induction n generalizing ms with
  | zero => exact absurd (List.length_eq_zero_iff.mp (Nat.le_zero.mp hn)) hne
  | succ n ih =>
    cases ms with
    | nil => exact absurd rfl hne
    | cons m ms =>
      obtain ⟨⟨hkey, hvalue⟩, hms⟩ := List.forall_mem_cons.mp hms
      cases ms with
      | nil =>
        rw [readMembers, writeMembers, readMember_write hkey hvalue]
        dsimp only
        rw [expect_self (by decide)]
      | cons m' ms =>
        rw [readMembers, writeMembers, readMember_write hkey hvalue]
        · dsimp only
          rw [expect_of_ne (by decide) (by decide)]
          dsimp only
          rw [expect_self (by decide)]
          dsimp only
          rw [ih (by simp) hms (by simpa using hn)]
        · simp

lemma writeMember_length (m : Bytes × Bytes) :
    (writeMember m).length = m.1.length + m.2.length + 5 := by
  simp [writeMember, quote]
  omega

lemma writeMembers_length (hne : ms ≠ []) : (writeMembers ms).length = size ms := by
  induction ms with
  | nil => exact absurd rfl hne
  | cons m ms ih =>
    cases ms with
    | nil => simp [writeMembers, writeMember_length, size]
    | cons m' ms =>
      rw [writeMembers, List.length_append, List.length_cons, ih (by simp), writeMember_length]
      · simp [size]
        omega
      · simp

theorem readObject_write (hne : ms ≠ []) (hms : AllPlain ms) : readObject (write ms) = some ms := by
  have hlen : ms.length ≤ (writeMembers ms).length := by
    rw [writeMembers_length hne, size]
    exact (List.length_map _).symm.trans_le (List.length_le_sum_of_one_le _ (by simp; omega))
  have hnotEmpty : expect (ch '}') (writeMembers ms) = none := by
    match ms, hne with
    | [m], _ => exact expect_of_ne (by decide) (by decide)
    | m :: m' :: ms, _ => exact expect_of_ne (by decide) (by decide)
  rw [readObject, write, expect_self (by decide)]
  dsimp only
  rw [hnotEmpty]
  dsimp only
  rw [readMembers_write hne hms _ hlen]
  rfl

/-- The bytes that a writer adds. -/
def marks : Bytes := [ch '{', ch '}', ch '"', ch ':', ch ',']

/-- None of them is a control character. -/
lemma le_of_mem_marks : ∀ b ∈ marks, 32 ≤ b := by
  decide +kernel

/-- What holds of every byte of a text holds of every byte of its members. -/
lemma forall_mem_write {p : UInt8 → Prop} (hp : ∀ b ∈ marks, p b) :
    (∀ b ∈ write ms, p b) ↔ ∀ m ∈ ms, (∀ b ∈ m.1, p b) ∧ ∀ b ∈ m.2, p b := by
  simp only [marks, List.forall_mem_cons] at hp
  obtain ⟨hopen, hclose, hquote, hcolon, hcomma, -⟩ := hp
  have htext (v : Bytes) : (∀ b ∈ quote v, p b) ↔ ∀ b ∈ v, p b := by
    rw [quote, List.forall_mem_cons, List.forall_mem_append, List.forall_mem_singleton]
    exact ⟨fun h => h.2.1, fun h => ⟨hquote, h, hquote⟩⟩
  have hmember (m : Bytes × Bytes) :
      (∀ b ∈ writeMember m, p b) ↔ (∀ b ∈ m.1, p b) ∧ ∀ b ∈ m.2, p b := by
    rw [writeMember, List.forall_mem_append, List.forall_mem_cons, htext, htext,
      and_iff_right hcolon]
  have hmembers : (∀ b ∈ writeMembers ms, p b) ↔
      ∀ m ∈ ms, (∀ b ∈ m.1, p b) ∧ ∀ b ∈ m.2, p b := by
    fun_induction writeMembers ms with
    | case1 => simpa only [List.forall_mem_singleton, List.not_mem_nil, false_imp_iff,
        implies_true, iff_true] using hclose
    | case2 m => rw [List.forall_mem_append, List.forall_mem_singleton, List.forall_mem_singleton,
        hmember, and_iff_left hclose]
    | case3 m ms _ ih => rw [List.forall_mem_append, List.forall_mem_cons, List.forall_mem_cons,
        hmember, ih, and_iff_right hcomma]
  rw [write, List.forall_mem_cons, hmembers, and_iff_right hopen]

/-- The quotes inside the keys and values. -/
def quotes (ms : List (Bytes × Bytes)) : ℕ :=
  (ms.map fun m => m.1.count (ch '"') + m.2.count (ch '"')).sum

lemma count_writeMember (m : Bytes × Bytes) : (writeMember m).count (ch '"') =
    m.1.count (ch '"') + m.2.count (ch '"') + 4 := by
  have htext (v : Bytes) : (quote v).count (ch '"') = v.count (ch '"') + 2 := by
    rw [quote, List.count_cons_self, List.count_append, List.count_singleton_self]
  have hcolon : ch ':' ≠ ch '"' := by decide
  rw [writeMember, List.count_append, List.count_cons_of_ne hcolon, htext, htext]
  omega

lemma count_write : (write ms).count (ch '"') = quotes ms + 4 * ms.length := by
  have hopen : ch '{' ≠ ch '"' := by decide
  have hclose : [ch '}'].count (ch '"') = 0 := by decide
  have hcomma : ch ',' ≠ ch '"' := by decide
  rw [write, List.count_cons_of_ne hopen]
  fun_induction writeMembers ms with
  | case1 => exact hclose
  | case2 m =>
    rw [List.count_append, hclose, count_writeMember]
    simp only [quotes, List.map_cons, List.map_nil, List.sum_cons, List.sum_nil,
      List.length_singleton]
    omega
  | case3 m ms _ ih =>
    rw [List.count_append, List.count_cons_of_ne hcomma, count_writeMember, ih]
    simp only [quotes, List.map_cons, List.sum_cons, List.length_cons]
    omega

lemma quotes_eq_zero_iff : quotes ms = 0 ↔ ∀ m ∈ ms, ch '"' ∉ m.1 ∧ ch '"' ∉ m.2 := by
  rw [quotes, List.sum_eq_zero_iff, List.forall_mem_map]
  simp only [Nat.add_eq_zero_iff, List.count_eq_zero]

lemma allPlain_iff : AllPlain ms ↔ quotes ms = 0 ∧
    ∀ m ∈ ms, (∀ b ∈ m.1, b ≠ ch '\\' ∧ 32 ≤ b) ∧ ∀ b ∈ m.2, b ≠ ch '\\' ∧ 32 ≤ b := by
  have htext (v : Bytes) : Plain v ↔ ch '"' ∉ v ∧ ∀ b ∈ v, b ≠ ch '\\' ∧ 32 ≤ b := by
    constructor
    · exact fun hv => ⟨fun hmem => (hv _ hmem).1 rfl, fun b hb => (hv b hb).2⟩
    · rintro ⟨hquote, hrest⟩ b hb
      exact ⟨fun heq => hquote (heq ▸ hb), hrest b hb⟩
  rw [quotes_eq_zero_iff, ← forall₂_and]
  simp only [AllPlain, htext]
  exact forall₂_congr fun m _ => and_and_and_comm

/-- Among texts of as many members, a plain one is written in one way. -/
theorem write_inj (hms : AllPlain ms) (hlen : ms'.length = ms.length)
    (h : write ms' = write ms) : ms' = ms := by
  have hmarks : ∀ b ∈ marks, b ≠ ch '\\' ∧ 32 ≤ b := by decide +kernel
  obtain ⟨hquotes, hbytes⟩ := allPlain_iff.mp hms
  have hcount := congrArg (List.count (ch '"')) h
  rw [count_write, count_write, hlen, hquotes] at hcount
  have hms' : AllPlain ms' := by
    refine allPlain_iff.mpr ⟨by omega, (forall_mem_write hmarks).mp ?_⟩
    rw [h]
    exact (forall_mem_write hmarks).mpr hbytes
  by_cases hne : ms = []
  · rw [hne, List.length_nil, List.length_eq_zero_iff] at hlen
    rw [hlen, hne]
  · have hne' : ms' ≠ [] := fun hnil => hne (List.length_eq_zero_iff.mp (by rw [← hlen, hnil]; rfl))
    have hread := readObject_write hne' hms'
    rw [h, readObject_write hne hms] at hread
    exact (Option.some.inj hread).symm

/-- What is written reads back as the same members, in any order, only where every key and
value is plain. -/
theorem reads_back_iff (hne : ms ≠ []) :
    (∃ ms', readObject (write ms) = some ms' ∧ ms'.Perm ms) ↔ AllPlain ms := by
  constructor
  · rintro ⟨ms', hread, hperm⟩
    have hne' : ms' ≠ [] := fun hnil => hne (List.nil_perm.mp (hnil ▸ hperm))
    have hsize : size ms' = size ms := (hperm.map _).sum_eq
    obtain ⟨-, hplain⟩ := readObject_takes hne' hread
    have hlen : (write ms).length ≤ 1 + size ms' + ([] : Bytes).length := by
      rw [write, List.length_cons, writeMembers_length hne, hsize, List.length_nil]
      omega
    have hall := hplain hlen
    exact fun m hm => hall m (hperm.mem_iff.mpr hm)
  · exact fun hms => ⟨ms, readObject_write hne hms, List.Perm.refl _⟩

end write
end AiAuth.Library.JsonText
