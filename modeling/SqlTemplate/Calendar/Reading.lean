import SqlTemplate.Calendar.Basic
import SqlTemplate.Text.Blank

/-!
# Reading dates and times

A date is read as year, month and day with a mark between them, a time as hour, minute
and second with an optional fraction. Each number may have blanks before it and need not
have all its digits; a year with a sign may have more than four. Between date and time
stand blanks, if anything. A reader takes its part from the start of a text and leaves
the rest; the readers of whole texts (`Date.ofText?`, `DateTime.ofText?`) accept no rest.
-/

namespace SqlTemplate.Calendar

/-- Reads a number of one to `width` digits behind any blanks. -/
def readNumber (width : Nat) (s : List Char) : Option (Nat × List Char) :=
  match Text.takeDigits width (Text.trimStart s) with
  | ([], _) => none
  | (ds, rest) => some (Text.digitsValue ds, rest)

def readBounded (low high width : Nat) (s : List Char) : Option (Nat × List Char) := do
  let (n, rest) ← readNumber width s
  if low ≤ n ∧ n ≤ high then some (n, rest) else none

/-- Reads a year: four digits at most, or a sign and any number of digits. -/
def readYear (s : List Char) : Option (Int × List Char) :=
  match Text.trimStart s with
  | '-' :: r => (readSigned r).map fun (n, rest) => (-(n : Int), rest)
  | '+' :: r => (readSigned r).map fun (n, rest) => ((n : Int), rest)
  | r => (readNumber 4 r).map fun (n, rest) => ((n : Int), rest)
where
  /-- The digits of a signed year follow the sign at once. -/
  readSigned (r : List Char) : Option (Nat × List Char) :=
    match Text.takeDigits r.length r with
    | ([], _) => none
    | (ds, rest) => some (Text.digitsValue ds, rest)

def readMark (mark : Char) : List Char → Option (List Char)
  | [] => none
  | c :: s => if c = mark then some s else none

/-- Reads a date whose parts stand between the given marks. -/
def readDate (mark : Char) (s : List Char) : Option (Date × List Char) := do
  let (year, s) ← readYear s
  let s ← readMark mark s
  let (month, s) ← readBounded 1 12 2 s
  let s ← readMark mark s
  let (day, s) ← readBounded 1 31 2 s
  let date ← Date.of? year month day
  return (date, s)

/-- Reads a fraction of a second behind its point, as nanoseconds. Digits after the ninth
are skipped. -/
def readFraction (s : List Char) : Option (Nat × List Char) :=
  match Text.takeDigits 9 s with
  | ([], _) => none
  | (ds, rest) =>
    some (Text.digitsValue ds * Nat.pow 10 (9 - ds.length), rest.dropWhile Char.isDigit)

def readTime (s : List Char) : Option (Time × List Char) := do
  let (hour, s) ← readBounded 0 23 2 s
  let s ← readMark ':' s
  let (minute, s) ← readBounded 0 59 2 s
  let s ← readMark ':' s
  let (second, s) ← readBounded 0 60 2 s
  let (nanosecond, s) ←
    match s with
    | '.' :: r => readFraction r
    | r => some (0, r)
  return (⟨hour, minute, second, nanosecond⟩, s)

/-- What a reader has read, if nothing is left over. -/
def whole? {α : Type} : Option (α × List Char) → Option α
  | some (a, []) => some a
  | _ => none

/-- Reads a date with the given mark between its parts. -/
def Date.ofText? (mark : Char) (s : List Char) : Option Date :=
  whole? (readDate mark s)

def Time.ofText? (s : List Char) : Option Time :=
  whole? (readTime s)

/-- Reads a date with hyphens and the time on it. -/
def DateTime.ofText? (s : List Char) : Option DateTime :=
  whole? do
    let (date, s) ← readDate '-' s
    let (time, s) ← readTime (Text.trimStart s)
    return (⟨date, time⟩, s)

/-- Reads a moment as it is written in a condition: a date and a time, or the start of a
day whose date has hyphens or slashes. -/
def DateTime.ofLiteral? (s : List Char) : Option DateTime :=
  DateTime.ofText? s <|>
    ((Date.ofText? '-' s <|> Date.ofText? '/' s).map DateTime.atMidnight)

end SqlTemplate.Calendar
