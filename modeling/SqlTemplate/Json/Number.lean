import SqlTemplate.Json.Basic
import SqlTemplate.Number.Notation

/-!
# Numbers in JSON

A number without point and power of ten is an integer if 64 bits hold it, unsigned where
it is positive and signed where it is negative; negative zero is no integer. Every other
number is a binary number. Its digits are collected while they fit into 64 bits; the
significand so read is rounded to a binary number and then multiplied or divided by a
power of ten, which is rounded too. A number beyond the finite ones is refused.

Binary numbers are written with their shortest digits, positionally with at least one
decimal place while the leading digit stands for `10 ^ -5` to `10 ^ 15`, else with a
signed power of ten.
-/

namespace SqlTemplate.Json

open Number (Binary64)

/-- Digits collected from a number: those that fit into 64 bits, and the power of ten that
scales them. -/
structure Significand where
  value : Nat
  exponent : Int
  /-- Whether a digit was left out. -/
  full : Bool

namespace Significand

/-- Collects a digit before the point. Once a digit is left out, so are all later ones,
and each scales by ten. -/
def pushWhole (s : Significand) (c : Char) : Significand :=
  let next := s.value * 10 + Text.digitValue c
  if s.full || Nat.pow 2 64 ≤ next then { s with exponent := s.exponent + 1, full := true }
  else { s with value := next }

/-- Collects a digit behind the point. Once a digit is left out, later ones are ignored. -/
def pushPlace (s : Significand) (c : Char) : Significand :=
  let next := s.value * 10 + Text.digitValue c
  if s.full || Nat.pow 2 64 ≤ next then { s with full := true }
  else { s with value := next, exponent := s.exponent - 1 }

/-- The digits before and behind the point. -/
def ofDigits (whole places : List Char) : Significand :=
  let s := whole.foldl pushWhole ⟨0, 0, false⟩
  places.foldl pushPlace { s with full := false }

end Significand

/-- The greatest power of ten that is one finite binary number. -/
abbrev maxPower : Nat := 308

/-- Multiplies a number by a power of ten, both rounded. -/
def timesPower (x : Binary64) (power : Nat) : Binary64 :=
  let (n, d) := x.ratio
  let (pn, pd) := (Binary64.ofScientific false 1 power).ratio
  Binary64.ofRatio false (n * pn) (d * pd)

/-- Divides a number by a power of ten, both rounded. -/
def overPower (x : Binary64) (power : Nat) : Binary64 :=
  let (n, d) := x.ratio
  let (pn, pd) := (Binary64.ofScientific false 1 power).ratio
  Binary64.ofRatio false (n * pd) (d * pn)

/-- Divides by a power of ten in steps of the greatest one. Three such steps take any
significand of 64 bits to zero. -/
def overLargePower : Nat → Binary64 → Nat → Binary64
  | 0, x, _ => x
  | steps + 1, x, power =>
    if power ≤ maxPower then overPower x power
    else overLargePower steps (overPower x maxPower) (power - maxPower)

/-- The absolute value of the number with the given significand and power of ten, if it is
finite. -/
def scaled? (significand : Nat) (power : Int) : Option Binary64 :=
  let x := Binary64.ofRatio false significand 1
  if power < 0 then some (overLargePower 4 x power.natAbs)
  else if x.isZero then some x
  else if maxPower < power.toNat then none
  else
    let y := timesPower x power.toNat
    if y.isFinite then some y else none

def signed (negative : Bool) (x : Binary64) : Binary64 :=
  if negative then x.neg else x

/-- The integer written by digits, if 64 bits hold it. -/
def integer? (negative : Bool) (digits : List Char) : Option Int :=
  let n := Text.digitsValue digits
  if negative then if n = 0 ∨ Nat.pow 2 63 < n then none else some (-(n : Int))
  else if n < Nat.pow 2 64 then some n
  else none

/-- The digits before the point: one zero, or digits that do not start with zero. -/
def wholeDigits? (s : List Char) : Option (List Char × List Char) :=
  match s with
  | '0' :: r => some (['0'], r)
  | _ =>
    match Text.takeDigits s.length s with
    | ([], _) => none
    | (ds, rest) => some (ds, rest)

/-- The point and the digits behind it, of which there is at least one. -/
def places? (s : List Char) : Option (List Char × List Char) :=
  match s with
  | '.' :: r =>
    match Text.takeDigits r.length r with
    | ([], _) => none
    | (ds, rest) => some (ds, rest)
  | _ => some ([], s)

/-- Reads a number at the start of a text. -/
def number? (s : List Char) : Option (Json × List Char) := do
  let (negative, s) :=
    match s with
    | '-' :: r => (true, r)
    | r => (false, r)
  let (whole, afterWhole) ← wholeDigits? s
  let (places, afterPlaces) ← places? afterWhole
  let (power, rest) ← Number.readPower afterPlaces
  match if rest.length = afterWhole.length then integer? negative whole else none with
  | some n => return (.int n, rest)
  | none =>
    let digits := Significand.ofDigits whole places
    let x ← scaled? digits.value (digits.exponent + power)
    return (.float (signed negative x), rest)

/-- A binary number in JSON; there is none for infinities and NaN. -/
def numberText (x : Binary64) : String :=
  if !x.isFinite then "null"
  else
    let sign := if x.isNegative then "-" else ""
    if x.isZero then sign ++ "0.0"
    else
      let d := Number.shortest .toEven x
      let e := d.leadingExponent
      if e < -5 ∨ 15 < e then sign ++ String.ofList d.exponential
      else if d.exponent < 0 then sign ++ String.ofList d.positional
      else sign ++ String.ofList d.positional ++ ".0"

end SqlTemplate.Json
