import SqlTemplate.Number.Shortest
import SqlTemplate.Text.Digits

/-!
# Writing and reading numbers

A decimal `digits · 10 ^ exponent` is written positionally (`positional`) or with the
point behind its first digit and a signed power of ten (`exponential`). `Binary64.text`
writes any number positionally with its shortest digits; `Binary64.ofText?` reads that
form and every other usual one back, rounded to the nearest number.
-/

namespace SqlTemplate.Number

namespace Scientific

/-- The digits with the point at its place and no exponent, for instance `0.0012` or
`1200`. -/
def positional (d : Scientific) : List Char :=
  let ds := d.digitChars
  if 0 ≤ d.exponent then ds ++ List.replicate d.exponent.toNat '0'
  else
    let places := (-d.exponent).toNat
    if places < ds.length then
      ds.take (ds.length - places) ++ '.' :: ds.drop (ds.length - places)
    else '0' :: '.' :: (List.replicate (places - ds.length) '0' ++ ds)

/-- The first digit, a point and the other digits if there are any, and the power of ten
with its sign, for instance `1.5e+300` or `1e-7`. -/
def exponential (d : Scientific) : List Char :=
  let e := d.leadingExponent
  let mantissa :=
    match d.digitChars with
    | [] => []
    | [c] => [c]
    | c :: cs => c :: '.' :: cs
  mantissa ++ 'e' :: (if e < 0 then '-' else '+') :: Nat.toDigits 10 e.natAbs

end Scientific

/-- Reads a power of ten: its mark, an optional sign and digits, of which there is at least
one. Where there is no mark the power is zero. -/
def readPower (s : List Char) : Option (Int × List Char) :=
  match s with
  | [] => some (0, [])
  | mark :: r =>
    if mark = 'e' ∨ mark = 'E' then
      let (negative, digits) :=
        match r with
        | '-' :: r => (true, r)
        | '+' :: r => (false, r)
        | _ => (false, r)
      match Text.takeDigits digits.length digits with
      | ([], _) => none
      | (ds, rest) =>
        let n : Int := Text.digitsValue ds
        some (if negative then -n else n, rest)
    else some (0, s)

namespace Binary64

/-- The shortest digits in positional notation, a minus sign before them if the sign bit
is set. Zero has a sign, NaN has none. -/
def text (x : Binary64) : String :=
  if x.isNaN then "NaN"
  else
    let sign := if x.isNegative then "-" else ""
    if !x.isFinite then sign ++ "inf"
    else if x.isZero then sign ++ "0"
    else sign ++ String.ofList (shortest .up x).positional

/-- Reads an unsigned number: digits with or without a point, at least one digit, and an
optional power of ten. -/
def unsignedOfText? (negative : Bool) (s : List Char) : Option Binary64 :=
  let (whole, rest) := Text.takeDigits s.length s
  let (places, rest) :=
    match rest with
    | '.' :: r => Text.takeDigits r.length r
    | r => ([], r)
  if whole = [] ∧ places = [] then none
  else
    match readPower rest with
    | some (power, []) =>
      some (ofScientific negative (Text.digitsValue (whole ++ places)) (power - places.length))
    | _ => none

/-- Reads a number, rounded to nearest: an optional sign, then digits, or one of the
words for infinity and NaN in either case. -/
def ofText? (s : String) : Option Binary64 :=
  let (negative, body) :=
    match s.toList with
    | '-' :: r => (true, r)
    | '+' :: r => (false, r)
    | r => (false, r)
  match String.ofList (body.map Char.toLower) with
  | "inf" => some (infinity negative)
  | "infinity" => some (infinity negative)
  | "nan" => some (if negative then nan.neg else nan)
  | _ => unsignedOfText? negative body

end Binary64

end SqlTemplate.Number
