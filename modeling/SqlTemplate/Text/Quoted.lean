/-!
# Quoted SQL text

A string literal of SQL stands between two quote marks, and a quote mark inside it is
written twice. `quote` writes a literal; `undouble` reads the text between the marks
and undoes the doubling (`undouble_double`). `literalTail` cuts a literal off the text
that follows its opening mark: a doubled mark goes on, a single one closes it.
-/

namespace SqlTemplate.Text

/-- The mark that opens and closes an SQL literal. -/
abbrev quoteMark : Char := '\''

/-- The text with every quote mark written twice. -/
def double : List Char → List Char
  | [] => []
  | c :: s => if c = quoteMark then quoteMark :: quoteMark :: double s else c :: double s

/-- The text with every two adjacent quote marks, taken from the left, written once. -/
def undouble : List Char → List Char
  | [] => []
  | [c] => [c]
  | c :: d :: s =>
    if c = quoteMark ∧ d = quoteMark then quoteMark :: undouble s else c :: undouble (d :: s)

/-- The SQL literal that denotes the text. -/
def quote (s : List Char) : List Char :=
  quoteMark :: (double s ++ [quoteMark])

def sqlQuote (s : String) : String :=
  String.ofList (quote s.toList)

/-- Cuts a literal off a text that starts after its opening mark: the part up to and
including the closing mark, or all of the text where none closes it, and the rest. -/
def literalTail : List Char → List Char × List Char
  | [] => ([], [])
  | [c] => ([c], [])
  | c :: d :: s =>
    if c = quoteMark then
      if d = quoteMark then
        let (inside, rest) := literalTail s
        (c :: d :: inside, rest)
      else ([c], d :: s)
    else
      let (inside, rest) := literalTail (d :: s)
      (c :: inside, rest)

@[simp] theorem double_nil : double [] = [] := rfl

theorem double_append (s t : List Char) : double (s ++ t) = double s ++ double t := by
  induction s with
  | nil => rfl
  | cons c s ih => by_cases h : c = quoteMark <;> simp [double, h, ih]

/-- Reading undoes writing. -/
theorem undouble_double (s : List Char) : undouble (double s) = s := by
  induction s with
  | nil => rfl
  | cons c s ih =>
    by_cases h : c = quoteMark
    · simp [double, h, undouble, ih]
    · cases hs : double s with
      | nil =>
        rw [hs] at ih
        simp [double, h, undouble, ← ih]
      | cons d t =>
        rw [hs] at ih
        simp [double, h, hs, undouble, ih]

/-- Cutting a literal off loses nothing. -/
theorem literalTail_append (s : List Char) : (literalTail s).1 ++ (literalTail s).2 = s := by
  fun_induction literalTail s <;> simp_all

end SqlTemplate.Text
