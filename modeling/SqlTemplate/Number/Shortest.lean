import SqlTemplate.Number.Binary64

/-!
# The fewest digits that identify a number

`shortest` gives a positive finite number its shortest decimal: of all decimals that
round to the number, one with the fewest digits, and of those the nearest to it. Two
decimals can be equally near; which of them is taken is the argument `tie`.

The decimals that round to a number `m · 2 ^ q` form an interval around it, half a step
wide to either side and including its ends when `m` is even; below a power of two the
lower step is half as wide. All quantities are compared as natural numbers over one
denominator. The search goes from one digit to seventeen and tests, in each step, the
two neighbours of the number with that many digits: if any decimal with so few digits
lies in the interval, one of the neighbours does.
-/

namespace SqlTemplate.Number

/-- A decimal `digits · 10 ^ exponent`. -/
structure Scientific where
  digits : Nat
  exponent : Int
deriving DecidableEq, Repr

namespace Scientific

/-- The decimal digits, from the left. -/
def digitChars (d : Scientific) : List Char :=
  Nat.toDigits 10 d.digits

/-- The power of ten of the leading digit. -/
def leadingExponent (d : Scientific) : Int :=
  d.exponent + (d.digitChars.length : Int) - 1

/-- Moves factors of ten from the digits to the exponent, at most `fuel` of them. -/
def strip : Nat → Scientific → Scientific
  | 0, d => d
  | fuel + 1, d =>
    if d.digits % 10 = 0 then strip fuel ⟨d.digits / 10, d.exponent + 1⟩ else d

end Scientific

/-- Which of two equally near decimals is taken. -/
inductive Tie where
  /-- The one with the even last digit. -/
  | toEven
  /-- The greater one. -/
  | up
deriving DecidableEq, Repr

/-- The numbers that round to one binary number, as multiples of `1 / denominator`. -/
structure RoundingInterval where
  low : Nat
  value : Nat
  high : Nat
  denominator : Nat
  /-- Whether the ends belong to the interval. -/
  closed : Bool

namespace RoundingInterval

/-- The interval of a positive finite number. -/
def ofBinary64 (x : Binary64) : RoundingInterval :=
  let m := x.significand
  let below := if x.fractionField = 0 ∧ 1 < x.exponentField then 1 else 2
  let q := x.exponent - 2
  let scale := if 0 ≤ q then Nat.pow 2 q.toNat else 1
  { low := (4 * m - below) * scale
    value := 4 * m * scale
    high := (4 * m + 2) * scale
    denominator := if 0 ≤ q then 1 else Nat.pow 2 (-q).toNat
    closed := m % 2 == 0 }

/-- A decimal as a numerator over the denominator of the interval, both multiplied by the
same power of ten to keep them whole: the numerator and that power. -/
def scaled (i : RoundingInterval) (d : Scientific) : Nat × Nat :=
  if 0 ≤ d.exponent then (d.digits * Nat.pow 10 d.exponent.toNat * i.denominator, 1)
  else (d.digits * i.denominator, Nat.pow 10 (-d.exponent).toNat)

/-- Whether the decimal lies in the interval. -/
def contains (i : RoundingInterval) (d : Scientific) : Bool :=
  let (n, power) := i.scaled d
  if i.closed then i.low * power ≤ n && n ≤ i.high * power
  else i.low * power < n && n < i.high * power

/-- The greatest multiple of `10 ^ exponent` that does not exceed the value. -/
def floorOn (i : RoundingInterval) (exponent : Int) : Scientific :=
  if 0 ≤ exponent then ⟨i.value / (i.denominator * Nat.pow 10 exponent.toNat), exponent⟩
  else ⟨i.value * Nat.pow 10 (-exponent).toNat / i.denominator, exponent⟩

/-- The nearer of two adjacent decimals around the value. -/
def nearer (i : RoundingInterval) (tie : Tie) (lower upper : Scientific) : Scientific :=
  let (l, power) := i.scaled lower
  let (u, _) := i.scaled upper
  let value := i.value * power
  match compare (value - l) (u - value), tie with
  | .lt, _ => lower
  | .gt, _ => upper
  | .eq, .up => upper
  | .eq, .toEven => if lower.digits % 2 = 0 then lower else upper

/-- The decimal on the grid of `10 ^ exponent` that lies in the interval and is nearest
to the value, if there is one. -/
def onGrid? (i : RoundingInterval) (tie : Tie) (exponent : Int) : Option Scientific :=
  let lower := i.floorOn exponent
  let upper : Scientific := ⟨lower.digits + 1, exponent⟩
  match i.contains lower, i.contains upper with
  | true, true => some (i.nearer tie lower upper)
  | true, false => some lower
  | false, true => some upper
  | false, false => none

/-- The power of ten of the leading digit of the value, for a positive value. -/
def leadingExponent (i : RoundingInterval) : Int :=
  if i.denominator ≤ i.value then
    ((Nat.toDigits 10 (i.value / i.denominator)).length : Int) - 1
  else
    -- The value is below one: with `k` decimals it is at least one for the first time.
    let k := (Nat.toDigits 10 (i.denominator / i.value)).length - 1
    if i.denominator ≤ i.value * Nat.pow 10 k then -(k : Int) else -(k : Int) - 1

end RoundingInterval

/-- The shortest decimal of a positive finite number, without trailing zeros. Seventeen
digits always identify a number, so the search does not fail. -/
def shortest (tie : Tie) (x : Binary64) : Scientific :=
  let i := RoundingInterval.ofBinary64 x
  let leading := i.leadingExponent
  let found := (List.range 17).findSome? fun (n : Nat) => i.onGrid? tie (leading - n)
  Scientific.strip 400 (found.getD (i.floorOn (leading - 17)))

end SqlTemplate.Number
