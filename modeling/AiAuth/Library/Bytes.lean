import Mathlib.Data.List.Basic
import Mathlib.Data.List.TakeWhile
import Mathlib.Tactic.Ring

/-!
# Byte strings

Text literals, fixed-width big-endian numbers, and splitting at a separator byte.
Strings of the modelled programs are byte sequences; nothing requires them to be
valid UTF-8.
-/
namespace AiAuth.Library

abbrev Bytes := List UInt8

/-- The bytes of a text literal. -/
def ascii (s : String) : Bytes := s.toByteArray.data.toList

/-- The byte of an ASCII character. -/
abbrev ch (c : Char) : UInt8 := UInt8.ofNat c.toNat

/-- What a test says of all numbers below 256 it says of every byte. -/
theorem forall_byte {p : UInt8 → Bool}
    (h : ((List.range 256).all fun i => p (UInt8.ofNat i)) = true) (c : UInt8) : p c = true := by
  have hc := List.all_eq_true.mp h c.toNat (List.mem_range.mpr c.toNat_lt)
  rwa [UInt8.ofNat_toNat] at hc

/-- The low `w` bytes of `n`, most significant first. -/
def bigEndian : ℕ → ℕ → Bytes
  | 0, _ => []
  | w + 1, n => UInt8.ofNat (n / 256 ^ w % 256) :: bigEndian w n

/-- The number a byte string spells, most significant byte first. -/
def ofBigEndian (bs : Bytes) : ℕ := bs.foldl (fun n b => n * 256 + b.toNat) 0

@[simp] theorem bigEndian_length (w n : ℕ) : (bigEndian w n).length = w := by
  induction w with
  | zero => rfl
  | succ w ih => simp [bigEndian, ih]

lemma foldl_bigEndian (w n acc : ℕ) :
    (bigEndian w n).foldl (fun n b => n * 256 + b.toNat) acc = acc * 256 ^ w + n % 256 ^ w := by
  induction w generalizing acc with
  | zero => simp [bigEndian, Nat.mod_one]
  | succ w ih =>
    have hb : (UInt8.ofNat (n / 256 ^ w % 256)).toNat = n / 256 ^ w % 256 := by
      simp
    rw [bigEndian, List.foldl_cons, ih, hb, pow_succ, Nat.mod_mul]
    ring

/-- Writing a number and reading it back gives the number, if it fits the width. -/
theorem ofBigEndian_bigEndian {w n : ℕ} (h : n < 256 ^ w) :
    ofBigEndian (bigEndian w n) = n := by
  rw [ofBigEndian, foldl_bigEndian, zero_mul, zero_add, Nat.mod_eq_of_lt h]

theorem bigEndian_inj {w m n : ℕ} (hm : m < 256 ^ w) (hn : n < 256 ^ w)
    (h : bigEndian w m = bigEndian w n) : m = n := by
  rw [← ofBigEndian_bigEndian hm, h, ofBigEndian_bigEndian hn]

lemma bigEndian_foldl (bs : Bytes) (acc : ℕ) :
    bigEndian bs.length (bs.foldl (fun n b => n * 256 + b.toNat) acc) = bs := by
  induction bs generalizing acc with
  | nil => rfl
  | cons b bs ih =>
    have hpos : 0 < 256 ^ bs.length := Nat.pow_pos (by decide)
    have hvalue := foldl_bigEndian bs.length
      (bs.foldl (fun n b => n * 256 + b.toNat) (acc * 256 + b.toNat)) (acc * 256 + b.toNat)
    rw [ih] at hvalue
    have hdiv : bs.foldl (fun n b => n * 256 + b.toNat) (acc * 256 + b.toNat) / 256 ^ bs.length =
        acc * 256 + b.toNat := by
      rw [hvalue, Nat.add_comm, Nat.add_mul_div_right _ _ hpos,
        Nat.div_eq_of_lt (Nat.mod_lt _ hpos), zero_add]
    have hbyte : (acc * 256 + b.toNat) % 256 = b.toNat := by
      have hb := b.toNat_lt
      omega
    rw [List.length_cons, List.foldl_cons, bigEndian, hdiv, hbyte, ih, UInt8.ofNat_toNat]

/-- Reading a number and writing it back gives the bytes. -/
theorem bigEndian_ofBigEndian {w : ℕ} {bs : Bytes} (h : bs.length = w) :
    bigEndian w (ofBigEndian bs) = bs := by
  rw [← h, ofBigEndian, bigEndian_foldl]

/-- The white space of text: the ASCII blanks and the UTF-8 encodings of the others. -/
def spaces : List Bytes :=
  [[9], [10], [11], [12], [13], [32], [0xC2, 0x85], [0xC2, 0xA0], [0xE1, 0x9A, 0x80],
    [0xE2, 0x80, 0x80], [0xE2, 0x80, 0x81], [0xE2, 0x80, 0x82], [0xE2, 0x80, 0x83],
    [0xE2, 0x80, 0x84], [0xE2, 0x80, 0x85], [0xE2, 0x80, 0x86], [0xE2, 0x80, 0x87],
    [0xE2, 0x80, 0x88], [0xE2, 0x80, 0x89], [0xE2, 0x80, 0x8A], [0xE2, 0x80, 0xA8],
    [0xE2, 0x80, 0xA9], [0xE2, 0x80, 0xAF], [0xE2, 0x81, 0x9F], [0xE3, 0x80, 0x80]]

/-- Strip any of the given words from the front, at most `n` times. -/
def trimWords (words : List Bytes) : ℕ → Bytes → Bytes
  | 0, s => s
  | n + 1, s =>
    match words.find? fun w => w.isPrefixOf s with
    | some w => trimWords words n (s.drop w.length)
    | none => s

/-- Strip white space from both ends. -/
def trimSpace (s : Bytes) : Bytes :=
  let front := trimWords spaces s.length s
  (trimWords (spaces.map List.reverse) front.length front.reverse).reverse

/-- The text before and after the first occurrence of a separator. -/
def cut (sep : UInt8) (s : Bytes) : Bytes × Bytes :=
  (s.takeWhile (· != sep), (s.dropWhile (· != sep)).drop 1)

/-- A part in front without the separator stays in front. -/
theorem cut_append_left {sep : UInt8} {a : Bytes} (ha : sep ∉ a) (s : Bytes) :
    cut sep (a ++ s) = (a ++ (cut sep s).1, (cut sep s).2) := by
  have hall : ∀ c ∈ a, (c != sep) = true := by
    intro c hc
    rw [bne_iff_ne]
    exact fun h => ha (h ▸ hc)
  simp [cut, List.takeWhile_append_of_pos hall, List.dropWhile_append_of_pos hall]

theorem cut_append {sep : UInt8} {p : Bytes} (hp : sep ∉ p) (rest : Bytes) :
    cut sep (p ++ sep :: rest) = (p, rest) := by
  rw [cut_append_left hp]
  simp [cut]

theorem cut_of_notMem {sep : UInt8} {p : Bytes} (hp : sep ∉ p) : cut sep p = (p, []) := by
  simpa [cut] using cut_append_left hp []

theorem cut_fst_notMem (sep : UInt8) (s : Bytes) : sep ∉ (cut sep s).1 := by
  intro hmem
  have hne := List.mem_takeWhile_imp hmem
  simp at hne

/-- The two sides of a separator that is there make up the text. -/
theorem cut_join {sep : UInt8} {s : Bytes} (h : sep ∈ s) :
    (cut sep s).1 ++ sep :: (cut sep s).2 = s := by
  obtain ⟨p, rest, rfl, hp⟩ := List.eq_append_cons_of_mem h
  rw [cut_append hp]

theorem cut_fst_isPrefix (sep : UInt8) (s : Bytes) : (cut sep s).1 <+: s :=
  List.takeWhile_prefix _

/-- The text before the separator is all of it only where there is no separator. -/
theorem cut_fst_length {sep : UInt8} {s : Bytes} (h : s.length ≤ (cut sep s).1.length) :
    sep ∉ s := by
  intro hmem
  have happ := List.takeWhile_append_dropWhile (p := fun c => c != sep) (l := s)
  have hlen := congrArg List.length happ
  rw [List.length_append] at hlen
  have hnil : s.dropWhile (fun c => c != sep) = [] := by
    rw [← List.length_eq_zero_iff]
    simp only [cut] at h
    omega
  have hsep := List.dropWhile_eq_nil_iff.mp hnil sep hmem
  simp at hsep

/-- The pieces of a byte string between the occurrences of a separator. -/
def splitOn (sep : UInt8) : Bytes → List Bytes
  | [] => [[]]
  | b :: bs =>
    if b = sep then [] :: splitOn sep bs
    else match splitOn sep bs with
      | [] => [[b]]
      | p :: ps => (b :: p) :: ps

theorem splitOn_ne_nil (sep : UInt8) (bs : Bytes) : splitOn sep bs ≠ [] := by
  cases bs with
  | nil => simp [splitOn]
  | cons b bs =>
    rw [splitOn]
    split_ifs
    · simp
    · split <;> simp

/-- A piece without the separator comes off the front as it is. -/
theorem splitOn_append (sep : UInt8) {p : Bytes} (hp : sep ∉ p) (rest : Bytes) :
    splitOn sep (p ++ sep :: rest) = p :: splitOn sep rest := by
  induction p with
  | nil => simp [splitOn]
  | cons b p ih =>
    simp only [List.mem_cons, not_or] at hp
    rw [List.cons_append, splitOn, if_neg (Ne.symm hp.1), ih hp.2]

/-- The pieces are free of the separator. -/
theorem notMem_of_mem_splitOn {sep : UInt8} {bs p : Bytes} (h : p ∈ splitOn sep bs) : sep ∉ p := by
  induction bs generalizing p with
  | nil => simp_all [splitOn]
  | cons b bs ih =>
    rw [splitOn] at h
    split_ifs at h with hb
    · rcases List.mem_cons.mp h with rfl | h
      · simp
      · exact ih h
    · cases hs : splitOn sep bs with
      | nil => exact absurd hs (splitOn_ne_nil sep bs)
      | cons q qs =>
        simp only [hs, List.mem_cons] at h
        rcases h with rfl | h
        · simp only [List.mem_cons, not_or]
          exact ⟨Ne.symm hb, ih (hs ▸ List.mem_cons_self)⟩
        · exact ih (hs ▸ List.mem_cons_of_mem _ h)

theorem splitOn_of_notMem (sep : UInt8) {p : Bytes} (hp : sep ∉ p) : splitOn sep p = [p] := by
  induction p with
  | nil => rfl
  | cons b p ih =>
    simp only [List.mem_cons, not_or] at hp
    rw [splitOn, if_neg (Ne.symm hp.1), ih hp.2]

/-- The bytes after the first one of a character. -/
def isContinuation (c : UInt8) : Bool := 0x80 ≤ c && c ≤ 0xBF

/-- Well-formed UTF-8: shortest forms, no surrogates, nothing above U+10FFFF. -/
def isUtf8 : Bytes → Bool
  | [] => true
  | a :: rest =>
    if a < 0x80 then isUtf8 rest
    else if 0xC2 ≤ a && a ≤ 0xDF then
      match rest with
      | b :: rest => isContinuation b && isUtf8 rest
      | _ => false
    else if 0xE0 ≤ a && a ≤ 0xEF then
      match rest with
      | b :: c :: rest =>
        (if a = 0xE0 then 0xA0 else 0x80) ≤ b && b ≤ (if a = 0xED then 0x9F else 0xBF) &&
          isContinuation c && isUtf8 rest
      | _ => false
    else if 0xF0 ≤ a && a ≤ 0xF4 then
      match rest with
      | b :: c :: d :: rest =>
        (if a = 0xF0 then 0x90 else 0x80) ≤ b && b ≤ (if a = 0xF4 then 0x8F else 0xBF) &&
          isContinuation c && isContinuation d && isUtf8 rest
      | _ => false
    else false

theorem isUtf8_of_ascii {bs : Bytes} (h : ∀ b ∈ bs, b < 128) : isUtf8 bs = true := by
  induction bs with
  | nil => rw [isUtf8]
  | cons b bs ih =>
    rw [isUtf8.eq_def]
    refine (if_pos (h b List.mem_cons_self)).trans ?_
    exact ih fun c hc => h c (List.mem_cons_of_mem b hc)

end AiAuth.Library
