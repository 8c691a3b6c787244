import SqlTemplate.Number.Binary64

/-!
# Decimals of 96 bits

A `Decimal` is a sign, a mantissa below `2 ^ 96` and a scale of at most 28 decimal
places, which is kept: `1.50` and `1.5` are two decimals that denote one number.
`compare` and `equals` compare the numbers, so they ignore scales and the sign of zero.

Reading a text with more decimal places than fit rounds at the first digit that does
not fit, a half away from zero; a negative power of ten behind the text rounds in the
same way. A binary number becomes the decimal it denotes exactly if it is an integer, else
a decimal with the digits that 52 bits can hold.
-/

namespace SqlTemplate.Number

/-- A signed decimal: a mantissa scaled down by a power of ten. -/
structure Decimal where
  negative : Bool
  mantissa : Nat
  scale : Nat
  mantissa_lt : mantissa < Nat.pow 2 96
  scale_le : scale ≤ 28
deriving DecidableEq, Repr

namespace Decimal

/-- The greatest number of decimal places. -/
abbrev maxScale : Nat := 28

/-- The decimal of the given parts, if they fit. -/
def ofParts? (negative : Bool) (mantissa scale : Nat) : Option Decimal :=
  if h : mantissa < Nat.pow 2 96 ∧ scale ≤ maxScale then
    some ⟨negative, mantissa, scale, h.1, h.2⟩
  else none

def zero : Decimal := ⟨false, 0, 0, by decide, by decide⟩

instance : Inhabited Decimal := ⟨zero⟩

/-- The integer as a decimal without decimal places, if it fits. -/
def ofInt? (n : Int) : Option Decimal :=
  ofParts? (n < 0) n.natAbs 0

def signed (d : Decimal) : Int :=
  if d.negative then -(d.mantissa : Int) else d.mantissa

/-- Compares two decimals as numbers. -/
def compare (a b : Decimal) : Ordering :=
  Ord.compare (a.signed * Int.pow 10 b.scale) (b.signed * Int.pow 10 a.scale)

/-- Whether two decimals denote one number. -/
def equals (a b : Decimal) : Bool :=
  a.signed * Int.pow 10 b.scale == b.signed * Int.pow 10 a.scale

/-- The digits with the point before the last `scale` of them; at least one digit stands
before the point. -/
def chars (d : Decimal) : List Char :=
  let ds := Nat.toDigits 10 d.mantissa
  let padded := List.replicate (d.scale + 1 - ds.length) '0' ++ ds
  let whole := padded.take (padded.length - d.scale)
  let places := padded.drop (padded.length - d.scale)
  (if d.negative then ['-'] else []) ++ whole ++ (if d.scale = 0 then [] else '.' :: places)

/-- The decimal as text; every place of its scale is written. -/
def text (d : Decimal) : String :=
  String.ofList d.chars

/-- Rounds at the first of the digits that do not fit any more: five or more of it rounds
up. When the rounded mantissa itself does not fit, it gives up one more place. -/
def roundAt (digits : List Char) (mantissa scale : Nat) : Option (Nat × Nat) :=
  if !digits.all Char.isDigit then none
  else if digits.headD '0' < '5' then some (mantissa, scale)
  else if mantissa + 1 < Nat.pow 2 96 then some (mantissa + 1, scale)
  else if scale = 0 then none
  else some ((mantissa + 1 + 4) / 10, scale - 1)

/-- Reads digits onto a mantissa, behind the point if `point` holds. -/
def readDigits (mantissa scale : Nat) (point : Bool) : List Char → Option (Nat × Nat)
  | [] => some (mantissa, scale)
  | c :: s =>
    if c = '.' then
      if point then none else readDigits mantissa scale true s
    else if !c.isDigit then none
    else
      let next := mantissa * 10 + (c.toNat - '0'.toNat)
      if Nat.pow 2 96 ≤ next then
        if point then roundAt (c :: s) mantissa scale else none
      else if !point then readDigits next scale false s
      else if scale + 1 < maxScale then readDigits next (scale + 1) true s
      else roundAt s next (scale + 1)

/-- Drops the last `places` digits, rounded half up. -/
def dropDigits (places mantissa : Nat) : Nat :=
  (mantissa + Nat.pow 10 places / 2) / Nat.pow 10 places

/-- Multiplies by a power of ten that is no greater than the greatest scale, in either
direction. The scale takes the power up while it can. Then a positive power makes the
mantissa greater, and a negative one costs it the digits behind the last decimal place. -/
def shift? (mantissa scale : Nat) (power : Int) : Option (Nat × Nat) :=
  if maxScale < power.natAbs then none
  else if power < 0 then
    let places := scale + power.natAbs
    some (dropDigits (places - maxScale) mantissa, min places maxScale)
  else if power.toNat ≤ scale then some (mantissa, scale - power.toNat)
  else some (mantissa * Nat.pow 10 (power.toNat - scale), 0)

/-- Reads an optional minus sign and digits with an optional point, and multiplies by a
power of ten. A zero loses its sign. -/
def ofText? (s : List Char) (power : Int) : Option Decimal :=
  let (negative, digits) :=
    match s with
    | '-' :: r => (true, r)
    | r => (false, r)
  match digits with
  | [] => none
  | _ => do
    let (mantissa, scale) ← readDigits 0 0 false digits
    let (mantissa, scale) ←
      if power = 0 then some (mantissa, scale) else shift? mantissa scale power
    ofParts? (negative && mantissa != 0) mantissa scale

/-- Divides a number by `2 ^ n`, as a mantissa and a scale: while the mantissa is odd and
has room it takes up a factor of five, else it gives up a factor of two, if need be
losing a bit. -/
def halve : Nat → Nat → Nat → Nat × Nat
  | 0, mantissa, scale => (mantissa, scale)
  | n + 1, mantissa, scale =>
    if mantissa % 2 = 1 ∧ mantissa * 5 < Nat.pow 2 96 then halve n (mantissa * 5) (scale + 1)
    else halve n (mantissa / 2) scale

/-- Drops decimal places until at most 28 are left. A mantissa that has but one digit to
drop vanishes. -/
def limitScale (mantissa : Nat) : Nat → Nat × Nat
  | 0 => (mantissa, 0)
  | scale + 1 =>
    if scale + 1 ≤ maxScale then (mantissa, scale + 1)
    else if mantissa < 10 then (0, 0)
    else limitScale (dropDigits 1 mantissa) scale

/-- Drops decimal places until the mantissa fits into the fraction field of a binary
number. -/
def limitPrecision (mantissa : Nat) : Nat → Nat × Nat
  | 0 => (mantissa, 0)
  | scale + 1 =>
    if mantissa < Nat.pow 2 52 then (mantissa, scale + 1)
    else limitPrecision (dropDigits 1 mantissa) scale

/-- Drops the decimal places that are zero. -/
def dropZeros (mantissa : Nat) : Nat → Nat × Nat
  | 0 => (mantissa, 0)
  | scale + 1 =>
    if mantissa % 10 = 0 then dropZeros (mantissa / 10) scale else (mantissa, scale + 1)

/-- The decimal for a binary number, if it is finite and not too large. -/
def ofBinary64? (x : Binary64) : Option Decimal :=
  if !x.isFinite then none
  else if 0 ≤ x.exponent then
    ofParts? x.isNegative (x.significand * Nat.pow 2 x.exponent.toNat) 0
  else
    let (m, s) := halve (-x.exponent).toNat x.significand 0
    let (m, s) := limitScale m s
    let (m, s) := limitPrecision m s
    let (m, s) := dropZeros m s
    ofParts? x.isNegative m s

@[simp] theorem equals_self (a : Decimal) : a.equals a := by
  simp [equals]

theorem equals_comm (a b : Decimal) : a.equals b = b.equals a :=
  BEq.comm

/-- Two decimals compare as equal exactly if they denote one number. -/
theorem compare_eq_iff (a b : Decimal) : a.compare b = .eq ↔ a.equals b := by
  simp [compare, equals]

end Decimal

end SqlTemplate.Number
