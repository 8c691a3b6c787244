import SqlTemplate.Text.Digits

/-!
# Dates and times

Dates of the Gregorian calendar, extended to the years before its introduction, times of
day with nanoseconds, and their combination. A leap second is the second 60 of its
minute. Dates and times are compared field by field, which is the order of time.

The written form of a date is `year-month-day`; a year has four digits, and outside the
years 0 to 9999 it has a sign. A fraction of a second is written with three, six or nine
digits, whichever are enough, and left out where it is zero.
-/

namespace SqlTemplate.Calendar

structure Date where
  year : Int
  month : Nat
  day : Nat
deriving DecidableEq, Repr, Inhabited

/-- A time of day; the second 60 is a leap second. -/
structure Time where
  hour : Nat
  minute : Nat
  second : Nat
  nanosecond : Nat
deriving DecidableEq, Repr, Inhabited

structure DateTime where
  date : Date
  time : Time
deriving DecidableEq, Repr, Inhabited

/-- Whether a year has a 29th of February. -/
def isLeapYear (year : Int) : Bool :=
  year % 4 == 0 && (year % 100 != 0 || year % 400 == 0)

/-- The number of days in a month, zero for a number that is no month. -/
def daysInMonth (year : Int) (month : Nat) : Nat :=
  match month with
  | 2 => if isLeapYear year then 29 else 28
  | 4 | 6 | 9 | 11 => 30
  | 1 | 3 | 5 | 7 | 8 | 10 | 12 => 31
  | _ => 0

abbrev firstYear : Int := -262143

abbrev lastYear : Int := 262142

namespace Date

/-- Whether the calendar has the day. -/
def isValid (d : Date) : Bool :=
  firstYear ≤ d.year && d.year ≤ lastYear && 1 ≤ d.day && d.day ≤ daysInMonth d.year d.month

/-- The day of the given year, month and day of the month, if there is one. -/
def of? (year : Int) (month day : Nat) : Option Date :=
  let d : Date := ⟨year, month, day⟩
  if d.isValid then some d else none

def compare (a b : Date) : Ordering :=
  (Ord.compare a.year b.year).then
    ((Ord.compare a.month b.month).then (Ord.compare a.day b.day))

/-- The year, with a sign outside the years of four digits. -/
def yearChars (year : Int) : List Char :=
  if 0 ≤ year ∧ year ≤ 9999 then Text.padded 4 year.toNat
  else (if year < 0 then '-' else '+') :: Text.padded 4 year.natAbs

def text (d : Date) : String :=
  String.ofList (yearChars d.year ++ '-' :: Text.padded 2 d.month ++ '-' :: Text.padded 2 d.day)

theorem isValid_of_of?_eq_some {year : Int} {month day : Nat} {d : Date}
    (h : of? year month day = some d) : d.isValid := by
  simp only [of?] at h
  split at h
  next hv => exact Option.some.inj h ▸ hv
  next => simp at h

end Date

namespace Time

def midnight : Time := ⟨0, 0, 0, 0⟩

def compare (a b : Time) : Ordering :=
  (Ord.compare a.hour b.hour).then ((Ord.compare a.minute b.minute).then
    ((Ord.compare a.second b.second).then (Ord.compare a.nanosecond b.nanosecond)))

/-- The fraction of a second with its point, nothing where it is zero. -/
def fractionChars (nanosecond : Nat) : List Char :=
  if nanosecond = 0 then []
  else if nanosecond % 1000000 = 0 then '.' :: Text.padded 3 (nanosecond / 1000000)
  else if nanosecond % 1000 = 0 then '.' :: Text.padded 6 (nanosecond / 1000)
  else '.' :: Text.padded 9 nanosecond

def text (t : Time) : String :=
  String.ofList (Text.padded 2 t.hour ++ ':' :: Text.padded 2 t.minute ++
    ':' :: Text.padded 2 t.second ++ fractionChars t.nanosecond)

end Time

namespace DateTime

def atMidnight (d : Date) : DateTime := ⟨d, Time.midnight⟩

def compare (a b : DateTime) : Ordering :=
  (a.date.compare b.date).then (a.time.compare b.time)

/-- Date and time as text, with a space between them. -/
def text (t : DateTime) : String :=
  t.date.text ++ " " ++ t.time.text

end DateTime

end SqlTemplate.Calendar
