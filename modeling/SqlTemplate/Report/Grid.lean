/-!
# Tables drawn with lines

A table of texts drawn with the box characters of Unicode: a frame, a double line under
the header, broken lines between rows and columns. Every cell has a space on both sides
and is filled up with spaces to the width of its column. A line feed in a cell starts a
new line of its row. Widths are counted in characters, so columns line up for characters
that take one place each.
-/

namespace SqlTemplate.Report

def cellLines (s : String) : List String :=
  s.splitOn "\n"

def cellWidth (s : String) : Nat :=
  (cellLines s).foldl (fun width line => max width line.length) 0

/-- The widths of the columns: each is that of its widest cell. -/
def columnWidths (rows : List (List String)) : List Nat :=
  rows.foldl (fun widths row => List.zipWith max widths (row.map cellWidth))
    ((rows.headD []).map cellWidth)

/-- A line between rows: the characters at the left end, along the columns, between them,
and at the right end. -/
structure RuleStyle where
  left : String
  along : String
  crossing : String
  right : String

def topRule : RuleStyle := ⟨"┌", "─", "┬", "┐"⟩

def headerRule : RuleStyle := ⟨"╞", "═", "╪", "╡"⟩

def rowRule : RuleStyle := ⟨"├", "╌", "┼", "┤"⟩

def bottomRule : RuleStyle := ⟨"└", "─", "┴", "┘"⟩

/-- A text over and over again. -/
def repeated (s : String) (n : Nat) : String :=
  String.join (List.replicate n s)

/-- A line over columns of the given widths. -/
def RuleStyle.draw (r : RuleStyle) (widths : List Nat) : String :=
  r.left ++ r.crossing.intercalate (widths.map fun w => repeated r.along (w + 2)) ++ r.right

/-- A text filled up to a width, with a space on both sides. -/
def padded (width : Nat) (s : String) : String :=
  " " ++ s ++ repeated " " (width - s.length) ++ " "

/-- The line of a row with the given number. -/
def rowLine (widths : List Nat) (row : List String) (line : Nat) : String :=
  let cells := List.zipWith (fun w s => padded w (((cellLines s)[line]?).getD "")) widths row
  "│" ++ "┆".intercalate cells ++ "│"

def rowLines (widths : List Nat) (row : List String) : List String :=
  let height := row.foldl (fun h s => max h (cellLines s).length) 0
  (List.range height).map (rowLine widths row)

def gridLines (header : List String) (rows : List (List String)) : List String :=
  let widths := columnWidths (header :: rows)
  let body := rows.map (rowLines widths)
  [topRule.draw widths] ++ rowLines widths header ++ [headerRule.draw widths]
    ++ [rowRule.draw widths].intercalate body ++ [bottomRule.draw widths]

/-- The table as text, without a line feed at its end. -/
def grid (header : List String) (rows : List (List String)) : String :=
  "\n".intercalate (gridLines header rows)

end SqlTemplate.Report
