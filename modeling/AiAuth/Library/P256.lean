import AiAuth.Library.Bytes

/-!
# The P-256 curve

Public keys are points with their curve membership, so a point off the curve
cannot be built. Group law and scalars are not needed here.
-/
namespace AiAuth.Library.P256

/-- The field prime. -/
def p : ℕ := 2 ^ 256 - 2 ^ 224 + 2 ^ 192 + 2 ^ 96 - 1

/-- The constant term of the curve equation. -/
def b : ℕ := 0x5ac635d8aa3a93e7b3ebbd55769886bc651d06b0cc53b0f63bce3c3e27d2604b

/-- `y² = x³ - 3x + b` on reduced coordinates; `(0, 0)` stands for infinity and is refused. -/
def isOnCurve (x y : ℕ) : Bool :=
  !(x == 0 && y == 0) && x < p && y < p && y * y % p == (x * x * x + (p - 3) * x + b) % p

/-- A public key. -/
structure Point where
  x : ℕ
  y : ℕ
  onCurve : isOnCurve x y = true
  deriving DecidableEq

/-- The base point of the curve. -/
def generator : Point where
  x := 0x6b17d1f2e12c4247f8bce6e563a440f277037d812deb33a0f4a13945d898c296
  y := 0x4fe342e2fe1a7f9b8ee7eb4a7c0f9e162bce33576b315ececbb6406837bf51f5
  onCurve := by decide +kernel

/-- Twice the base point. -/
def doubled : Point where
  x := 0x7cf27b188d034f7e8a52380304b51ac3c08969e277f21b35a60b48fc47669978
  y := 0x7775510db8ed040293d9ac69f7430dbba7dade63ce982299e04b79d227873d1
  onCurve := by decide +kernel

theorem p_lt : p < 256 ^ 32 := by decide +kernel

theorem Point.x_lt (k : Point) : k.x < 256 ^ 32 := by
  have h := k.onCurve
  simp only [isOnCurve, Bool.and_eq_true, decide_eq_true_eq] at h
  exact h.1.1.2.trans p_lt

theorem Point.y_lt (k : Point) : k.y < 256 ^ 32 := by
  have h := k.onCurve
  simp only [isOnCurve, Bool.and_eq_true, decide_eq_true_eq] at h
  exact h.1.2.trans p_lt

/-- The 32-byte coordinates determine the point. -/
theorem Point.ext_bytes {k k' : Point} (hx : bigEndian 32 k.x = bigEndian 32 k'.x)
    (hy : bigEndian 32 k.y = bigEndian 32 k'.y) : k = k' := by
  obtain ⟨x, y, h⟩ := k
  obtain ⟨x', y', h'⟩ := k'
  obtain rfl : x = x' := bigEndian_inj (Point.x_lt ⟨x, y, h⟩) (Point.x_lt ⟨x', y', h'⟩) hx
  obtain rfl : y = y' := bigEndian_inj (Point.y_lt ⟨x, y, h⟩) (Point.y_lt ⟨x, y', h'⟩) hy
  rfl

end AiAuth.Library.P256
