/-!
# Binary floating-point numbers of 64 bits

A `Binary64` is its bit pattern: a sign, an exponent field of eleven bits and a
fraction field of 52. Everything else is exact arithmetic on natural numbers: a finite
pattern denotes `significand · 2 ^ exponent` (`significand`, `exponent`), and
`ofRatio` rounds a quotient to the nearest pattern, a tie to the even one.

Equality of numbers (`equals`) is not equality of patterns: the two zeros are equal
and a NaN differs from itself. It is symmetric and transitive, and reflexive on all
patterns that are no NaN.
-/

namespace SqlTemplate.Number

/-- A binary floating-point number, as its 64-bit pattern. -/
structure Binary64 where
  bits : UInt64
deriving DecidableEq, Repr, Inhabited

namespace Binary64

/-- The number of bits in the fraction field. -/
abbrev fractionBits : Nat := 52

/-- The exponent field of the infinities and the NaNs. -/
abbrev specialField : Nat := 2047

def isNegative (x : Binary64) : Bool :=
  Nat.pow 2 63 ≤ x.bits.toNat

/-- The pattern without its sign bit. It grows with the absolute value. -/
def magnitude (x : Binary64) : Nat :=
  x.bits.toNat % Nat.pow 2 63

def exponentField (x : Binary64) : Nat :=
  x.magnitude / Nat.pow 2 fractionBits

def fractionField (x : Binary64) : Nat :=
  x.magnitude % Nat.pow 2 fractionBits

/-- Whether the pattern denotes a number and no infinity. -/
def isFinite (x : Binary64) : Bool :=
  x.exponentField != specialField

/-- Whether the pattern denotes no number at all. -/
def isNaN (x : Binary64) : Bool :=
  x.exponentField == specialField && x.fractionField != 0

/-- Whether the pattern denotes zero, of either sign. -/
def isZero (x : Binary64) : Bool :=
  x.magnitude == 0

/-- The integer that a finite pattern scales by a power of two. -/
def significand (x : Binary64) : Nat :=
  if x.exponentField = 0 then x.fractionField else Nat.pow 2 fractionBits + x.fractionField

/-- The power of two that scales the significand. -/
def exponent (x : Binary64) : Int :=
  if x.exponentField = 0 then -1074 else (x.exponentField : Int) - 1075

/-- The absolute value of a finite pattern as a quotient of natural numbers. -/
def ratio (x : Binary64) : Nat × Nat :=
  if 0 ≤ x.exponent then (x.significand * Nat.pow 2 x.exponent.toNat, 1)
  else (x.significand, Nat.pow 2 (-x.exponent).toNat)

/-- The pattern with the given sign and magnitude. -/
def ofMagnitude (negative : Bool) (magnitude : Nat) : Binary64 :=
  ⟨UInt64.ofNat (if negative then Nat.pow 2 63 + magnitude else magnitude)⟩

def infinity (negative : Bool) : Binary64 :=
  ofMagnitude negative (specialField * Nat.pow 2 fractionBits)

/-- The quiet NaN without a sign. -/
def nan : Binary64 :=
  ofMagnitude false (specialField * Nat.pow 2 fractionBits + Nat.pow 2 (fractionBits - 1))

/-- The quotient rounded to the nearest integer, a tie to the even one. -/
def roundQuotient (num den : Nat) : Nat :=
  let q := num / den
  let r := num % den
  if 2 * r < den then q else if den < 2 * r then q + 1 else if q % 2 = 0 then q else q + 1

/-- The quotient `num / den · 2 ^ (-q)`, rounded to an integer. -/
def roundScaled (num den : Nat) (q : Int) : Nat :=
  if 0 ≤ q then roundQuotient num (den * Nat.pow 2 q.toNat)
  else roundQuotient (num * Nat.pow 2 (-q).toNat) den

/-- The greatest `k` with `2 ^ k ≤ num / den`, for positive `num` and `den`. -/
def floorLog2 (num den : Nat) : Int :=
  let k := (num.log2 : Int) - den.log2
  let fits :=
    if 0 ≤ k then den * Nat.pow 2 k.toNat ≤ num else den ≤ num * Nat.pow 2 (-k).toNat
  if fits then k else k - 1

/-- The number nearest to `num / den`, of two equally near ones the even one. A quotient
too large for the finite numbers becomes an infinity. -/
def ofRatio (negative : Bool) (num den : Nat) : Binary64 :=
  if num = 0 then ofMagnitude negative 0
  else
    let q := max (floorLog2 num den - fractionBits) (-1074)
    let m := roundScaled num den q
    let magnitude :=
      if m < Nat.pow 2 fractionBits then m
      else (q + 1074).toNat * Nat.pow 2 fractionBits + m
    ofMagnitude negative (min magnitude (specialField * Nat.pow 2 fractionBits))

/-- The number nearest to `digits · 10 ^ exponent`. Exponents far outside the range of
the finite numbers are answered without computing the power. -/
def ofScientific (negative : Bool) (digits : Nat) (exponent : Int) : Binary64 :=
  let leading := (Nat.toDigits 10 digits).length + exponent
  if digits = 0 ∨ leading < -330 then ofMagnitude negative 0
  else if 310 < leading then infinity negative
  else if 0 ≤ exponent then ofRatio negative (digits * Nat.pow 10 exponent.toNat) 1
  else ofRatio negative digits (Nat.pow 10 (-exponent).toNat)

/-- The number with the other sign. -/
def neg (x : Binary64) : Binary64 :=
  ofMagnitude (!x.isNegative) x.magnitude

/-- Equality of the numbers that two patterns denote. -/
def equals (x y : Binary64) : Bool :=
  !x.isNaN && !y.isNaN && ((x.isZero && y.isZero) || x == y)

theorem equals_comm (x y : Binary64) : x.equals y = y.equals x := by
  have h : (x == y) = (y == x) := BEq.comm
  simp only [equals, h]
  cases x.isNaN <;> cases y.isNaN <;> cases x.isZero <;> cases y.isZero <;> rfl

theorem equals_self_iff (x : Binary64) : x.equals x ↔ x.isNaN = false := by
  simp [equals]

theorem equals_trans {x y z : Binary64} (hxy : x.equals y) (hyz : y.equals z) :
    x.equals z := by
  simp only [equals, Bool.and_eq_true, Bool.or_eq_true, Bool.not_eq_true', beq_iff_eq] at *
  refine ⟨⟨hxy.1.1, hyz.1.2⟩, ?_⟩
  rcases hxy.2 with hxy | rfl
  · rcases hyz.2 with hyz | rfl
    · exact .inl ⟨hxy.1, hyz.2⟩
    · exact .inl hxy
  · exact hyz.2

end Binary64

end SqlTemplate.Number
