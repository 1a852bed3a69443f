import AiAuth.Library.Bytes

/-!
# Quoted strings

Text between double quotes, as the verb `%q` writes it. Which characters beyond ASCII are
printable is a table of the language and a parameter here.
-/
namespace AiAuth.Library.Quote

def lowerhex (n : ℕ) : UInt8 := UInt8.ofNat (if n < 10 then 48 + n else 87 + n)

/-- The low `w` hexadecimal digits of `n`, most significant first. -/
def hexDigits : ℕ → ℕ → Bytes
  | 0, _ => []
  | w + 1, n => lowerhex (n / 16 ^ w % 16) :: hexDigits w n

/-- The escapes of one letter. -/
def escapes : List (UInt8 × UInt8) :=
  [(7, ch 'a'), (8, ch 'b'), (12, ch 'f'), (10, ch 'n'), (13, ch 'r'), (9, ch 't'), (11, ch 'v')]

/-- A byte by its two hexadecimal digits. -/
def escapeByte (c : UInt8) : Bytes := ch '\\' :: ch 'x' :: hexDigits 2 c.toNat

/-- An ASCII character. -/
def appendAscii (c : UInt8) : Bytes :=
  if c = ch '"' ∨ c = ch '\\' then [ch '\\', c]
  else if 32 ≤ c ∧ c < 127 then [c]
  else match escapes.lookup c with
    | some e => [ch '\\', e]
    | none => escapeByte c

/-- The low six bits of a byte behind the first. -/
def low (c : UInt8) : ℕ := c.toNat % 64

/-- The character in front that is not ASCII, and the number of its bytes; none where they are no
UTF-8. -/
def decodeRune : Bytes → Option (ℕ × ℕ)
  | a :: b :: rest =>
    if 0xC2 ≤ a && a ≤ 0xDF && isContinuation b then some (a.toNat % 32 * 64 + low b, 2)
    else match rest with
      | [] => none
      | c :: rest =>
        if 0xE0 ≤ a && a ≤ 0xEF && (if a = 0xE0 then 0xA0 else 0x80) ≤ b &&
            b ≤ (if a = 0xED then 0x9F else 0xBF) && isContinuation c then
          some ((a.toNat % 16 * 64 + low b) * 64 + low c, 3)
        else match rest with
          | [] => none
          | d :: _ =>
            if 0xF0 ≤ a && a ≤ 0xF4 && (if a = 0xF0 then 0x90 else 0x80) ≤ b &&
                b ≤ (if a = 0xF4 then 0x8F else 0xBF) && isContinuation c && isContinuation d then
              some (((a.toNat % 8 * 64 + low b) * 64 + low c) * 64 + low d, 4)
            else none
  | _ => none

/-- A character beyond ASCII, whose bytes are `text`. -/
def appendRune (isPrint : ℕ → Bool) (r : ℕ) (text : Bytes) : Bytes :=
  if isPrint r then text
  else if r < 0x10000 then ch '\\' :: ch 'u' :: hexDigits 4 r
  else ch '\\' :: ch 'U' :: hexDigits 8 r

/-- The text between the quotes. The first `n` bytes belong to a character that is written. -/
def body (isPrint : ℕ → Bool) : ℕ → Bytes → Bytes
  | _, [] => []
  | n + 1, _ :: rest => body isPrint n rest
  | 0, a :: rest =>
    if a < 128 then appendAscii a ++ body isPrint 0 rest
    else match decodeRune (a :: rest) with
      | none => escapeByte a ++ body isPrint 0 rest
      | some (r, width) =>
        appendRune isPrint r ((a :: rest).take width) ++ body isPrint (width - 1) rest

def quote (isPrint : ℕ → Bool) (s : Bytes) : Bytes := ch '"' :: body isPrint 0 s ++ [ch '"']

/-- A character that stands for itself. -/
def Plain (c : UInt8) : Prop := c ≠ ch '"' ∧ c ≠ ch '\\' ∧ 32 ≤ c ∧ c < 127

instance decidablePlain (c : UInt8) : Decidable (Plain c) :=
  inferInstanceAs (Decidable (c ≠ ch '"' ∧ c ≠ ch '\\' ∧ 32 ≤ c ∧ c < 127))

lemma appendAscii_plain {c : UInt8} (h : Plain c) : appendAscii c = [c] := by
  obtain ⟨hquote, hslash, hlow, hhigh⟩ := h
  rw [appendAscii, if_neg (not_or.mpr ⟨hquote, hslash⟩), if_pos ⟨hlow, hhigh⟩]

lemma body_plain {isPrint : ℕ → Bool} {s : Bytes} (h : ∀ c ∈ s, Plain c) :
    body isPrint 0 s = s := by
  induction s with
  | nil => rw [body]
  | cons a rest ih =>
    have ha : Plain a := h a List.mem_cons_self
    have hascii : a < 128 := UInt8.lt_trans ha.2.2.2 (by decide)
    rw [body, if_pos hascii, appendAscii_plain ha, ih fun c hc => h c (List.mem_cons_of_mem a hc)]
    rfl

/-- Plain text stands between the quotes as it is. -/
theorem quote_plain {isPrint : ℕ → Bool} {s : Bytes} (h : ∀ c ∈ s, Plain c) :
    quote isPrint s = ch '"' :: s ++ [ch '"'] := by
  rw [quote, body_plain h]

example : quote (fun r => r = 0xE9) [97, 34, 0xC3, 0xA9, 10, 0xFF, 0xC2, 0x85] =
    ascii "\"a\\\"é\\n\\xff\\u0085\"" := by
  decide +kernel

end AiAuth.Library.Quote
