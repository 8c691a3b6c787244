/-!
# Digits

Natural numbers written in decimal with at least a given number of digits, and read
from the digits at the start of a text, at most a given number of them; and the values
of the digits to the base sixteen.
-/

namespace SqlTemplate.Text

/-- The decimal digits of `n`, with zeros in front up to the given width. -/
def padded (width n : Nat) : List Char :=
  let ds := Nat.toDigits 10 n
  List.replicate (width - ds.length) '0' ++ ds

/-- The value of an ASCII digit. -/
def digitValue (c : Char) : Nat :=
  c.toNat - '0'.toNat

/-- The number written by digits, from the left. -/
def digitsValue (ds : List Char) : Nat :=
  ds.foldl (fun n c => n * 10 + digitValue c) 0

/-- The ASCII digits at the start of a text, at most `limit` of them, and the rest. -/
def takeDigits : Nat → List Char → List Char × List Char
  | 0, s => ([], s)
  | _ + 1, [] => ([], [])
  | limit + 1, c :: s =>
    if c.isDigit then
      let (ds, rest) := takeDigits limit s
      (c :: ds, rest)
    else ([], c :: s)

/-- The value of a hexadecimal digit in either case. -/
def hexValue? (c : Char) : Option Nat :=
  if c.isDigit then some (digitValue c)
  else if 'a' ≤ c ∧ c ≤ 'f' then some (c.toNat - 'a'.toNat + 10)
  else if 'A' ≤ c ∧ c ≤ 'F' then some (c.toNat - 'A'.toNat + 10)
  else none

/-- Nothing is lost between the digits and the rest. -/
theorem takeDigits_append (limit : Nat) (s : List Char) :
    (takeDigits limit s).1 ++ (takeDigits limit s).2 = s := by
  fun_induction takeDigits limit s <;> simp_all

/-- What is taken are digits. -/
theorem all_isDigit_takeDigits (limit : Nat) (s : List Char) :
    (takeDigits limit s).1.all Char.isDigit := by
  fun_induction takeDigits limit s <;> simp_all

/-- No more digits are taken than allowed. -/
theorem length_takeDigits_le (limit : Nat) (s : List Char) :
    (takeDigits limit s).1.length ≤ limit := by
  fun_induction takeDigits limit s <;> simp_all

end SqlTemplate.Text
