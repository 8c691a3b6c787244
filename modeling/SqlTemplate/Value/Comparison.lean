import SqlTemplate.Condition.Basic
import SqlTemplate.Error
import SqlTemplate.Value.Equality

/-!
# Comparing values

Values of a condition are compared across representations: numbers as decimals, days as
the times at which they begin. Null comes before everything else. A number or a date
compares with nothing but its kind and null; other values are equal or not, but in no
order.
-/

namespace SqlTemplate.Value

/-- Whether one of the values has the property and the other, unless null, has not. -/
def mismatch (kind : Value → Bool) (a b : Value) : Bool :=
  (kind a && !b.isNull && !kind b) || (kind b && !a.isNull && !kind a)

/-- Whether two values count as equal in a condition. -/
def sameAs (a b : Value) : Bool :=
  if a.isNumber && b.isNumber then
    match a.toDecimal?, b.toDecimal? with
    | some x, some y => x.equals y
    | _, _ => a.equals b
  else if a.isDate && b.isDate then a.toDateTime? == b.toDateTime?
  else a.equals b

/-- The order of two values that are not null, if they have one. -/
def order? (a b : Value) : Option Ordering :=
  if a.isNumber && b.isNumber then do
    let x ← a.toDecimal?
    let y ← b.toDecimal?
    return x.compare y
  else if a.isDate && b.isDate then do
    let x ← a.toDateTime?
    let y ← b.toDateTime?
    return x.compare y
  else none

/-- The order of two values with null before everything else. -/
def orderNullFirst? (a b : Value) : Option Ordering :=
  match a.isNull, b.isNull with
  | true, true => some .eq
  | true, false => some .lt
  | false, true => some .gt
  | false, false => order? a b

/-- Compares two values of a condition. -/
def compare (operator : Operator) (a b : Value) : Except ErrorKind Bool :=
  if mismatch isNumber a b || mismatch isDate a b then
    .error (.typeMismatch a.typeLabel b.typeLabel)
  else
    match operator with
    | .eq => .ok (sameAs a b)
    | .ne => .ok !(sameAs a b)
    | _ =>
      match orderNullFirst? a b with
      | some ordering => .ok (operator.accepts ordering)
      | none => .error (.unsupportedComparison operator.symbol a.typeLabel b.typeLabel)

end SqlTemplate.Value
