/-!
# Positions in a text

A position counts what has been read: the bytes of its UTF-8 encoding, the lines, and
the characters of the current line. Lines end at a line feed; lines and columns start
at one. A position is therefore a function of the text before it (`Position.after`),
and reading on from a position adds up (`after_append`).
-/

namespace SqlTemplate.Text

/-- A place in a text, as the amount of text before it. -/
structure Position where
  /-- The length of the text before it, in UTF-8 bytes. -/
  offset : Nat
  /-- The number of the line, from one. -/
  line : Nat
  /-- The number of the character in its line, from one. -/
  column : Nat
deriving DecidableEq, Repr

namespace Position

def start : Position := ⟨0, 1, 1⟩

/-- The position behind one more character. -/
def step (p : Position) (c : Char) : Position :=
  if c = '\n' then ⟨p.offset + c.utf8Size, p.line + 1, 1⟩
  else ⟨p.offset + c.utf8Size, p.line, p.column + 1⟩

def after (p : Position) (s : List Char) : Position :=
  s.foldl step p

@[simp] theorem after_nil (p : Position) : p.after [] = p := rfl

@[simp] theorem after_cons (p : Position) (c : Char) (s : List Char) :
    p.after (c :: s) = (p.step c).after s := rfl

theorem after_append (p : Position) (s t : List Char) :
    p.after (s ++ t) = (p.after s).after t := by
  simp [after]

end Position

end SqlTemplate.Text
