import SqlTemplate.Error
import SqlTemplate.Text.Quoted

/-!
# Literals in the text of a condition

What stands inside a quoted literal must not be taken for an operator. `markLiterals`
marks every character of a text that is the content of a literal; the quote marks around
it are not marked. The text itself is kept (`chars_of_markLiterals_eq_ok`), so cutting
a marked text cuts the text at the same place, between two characters. All that looks
for operators looks at the visible characters, where an underscore stands for content.

The visible text is checked for what conditions do not have: quotation marks,
parentheses around anything but the index of `get`, both connectives at once, and
operators that are written differently here (`checkVisible`).
-/

namespace SqlTemplate.Condition

/-- A character of a condition; `content` holds inside a quoted literal. -/
structure Mark where
  char : Char
  content : Bool
deriving DecidableEq, Repr

namespace Mark

/-- The character as operators are looked for: content is hidden. -/
def visible (m : Mark) : Char :=
  if m.content then '_' else m.char

end Mark

def chars (ms : List Mark) : List Char :=
  ms.map Mark.char

def visibleChars (ms : List Mark) : List Char :=
  ms.map Mark.visible

/-- Marks the rest of a text. Where a literal is open, `opened` is the text from its opening
mark on. -/
def markFrom (opened : Option (List Char)) : List Char → Except ErrorKind (List Mark)
  | [] =>
    match opened with
    | none => .ok []
    | some literal => .error (.unterminatedLiteral (String.ofList literal))
  | [c] =>
    match opened with
    | none =>
      if c = Text.quoteMark then .error (.unterminatedLiteral (String.ofList [c]))
      else .ok [⟨c, false⟩]
    | some literal =>
      if c = Text.quoteMark then .ok [⟨c, false⟩]
      else .error (.unterminatedLiteral (String.ofList literal))
  | c :: d :: s =>
    match opened with
    | none =>
      if c = Text.quoteMark then
        (markFrom (some (c :: d :: s)) (d :: s)).map (⟨c, false⟩ :: ·)
      else (markFrom none (d :: s)).map (⟨c, false⟩ :: ·)
    | some literal =>
      if c = Text.quoteMark then
        if d = Text.quoteMark then
          (markFrom (some literal) s).map (⟨c, true⟩ :: ⟨d, true⟩ :: ·)
        else (markFrom none (d :: s)).map (⟨c, false⟩ :: ·)
      else (markFrom (some literal) (d :: s)).map (⟨c, true⟩ :: ·)

/-- Marks the content of the literals in a text. -/
def markLiterals (s : List Char) : Except ErrorKind (List Mark) :=
  markFrom none s

theorem chars_of_markFrom_eq_ok {opened : Option (List Char)} {s : List Char}
    {ms : List Mark} (h : markFrom opened s = .ok ms) : chars ms = s := by
  have map_ok {f : List Mark → List Mark} {x : Except ErrorKind (List Mark)} {ns : List Mark}
      (hx : x.map f = .ok ns) : ∃ os, x = .ok os ∧ f os = ns := by
    cases x with
    | error e => simp [Except.map] at hx
    | ok os => exact ⟨os, rfl, by simpa [Except.map] using hx⟩
  fun_induction markFrom opened s generalizing ms with
  | case1 => grind [chars]
  | case2 => grind
  | case3 => grind
  | case4 => grind [chars]
  | case5 => grind [chars]
  | case6 => grind
  | case7 => obtain ⟨os, ho, rfl⟩ := map_ok h; grind [chars]
  | case8 => obtain ⟨os, ho, rfl⟩ := map_ok h; grind [chars]
  | case9 => obtain ⟨os, ho, rfl⟩ := map_ok h; grind [chars]
  | case10 => obtain ⟨os, ho, rfl⟩ := map_ok h; grind [chars]
  | case11 => obtain ⟨os, ho, rfl⟩ := map_ok h; grind [chars]

/-- Marking keeps the text. -/
theorem chars_of_markLiterals_eq_ok {s : List Char} {ms : List Mark}
    (h : markLiterals s = .ok ms) : chars ms = s :=
  chars_of_markFrom_eq_ok h

/-- Whether a character occurs twice in a row. -/
def occursTwice (c : Char) : List Char → Bool
  | [] => false
  | [_] => false
  | a :: b :: s => (a == c && b == c) || occursTwice c (b :: s)

/-- Whether the operator for inequality of other languages occurs. -/
def occursLessGreater : List Char → Bool
  | [] => false
  | [_] => false
  | a :: b :: s => (a == '<' && b == '>') || occursLessGreater (b :: s)

/-- Whether some parenthesis belongs to no call. A call is a pair of parentheses with
nothing between them, or one behind `get` with no parenthesis between them. The characters
before the text are given in reverse; `opened` says of an open pair whether it may hold
something. -/
def hasLooseParenthesis (before : List Char) (opened : Option Bool) : List Char → Bool
  | [] => opened.isSome
  | c :: s =>
    if c = '(' then
      opened.isSome ||
        hasLooseParenthesis (c :: before) (some (before.take 3 == "teg".toList)) s
    else if c = ')' then
      match opened with
      | none => true
      | some mayHold =>
        !(mayHold || before.head? == some '(') || hasLooseParenthesis (c :: before) none s
    else hasLooseParenthesis (c :: before) opened s

/-- Whether some equals sign is not part of an operator. The character before the text is
given. -/
def hasSingleEquals (previous : Option Char) : List Char → Bool
  | [] => false
  | c :: s =>
    let paired :=
      previous == some '=' || previous == some '!' || previous == some '<'
        || previous == some '>' || s.head? == some '='
    (c == '=' && !paired) || hasSingleEquals (some c) s

/-- Refuses a visible text with what conditions do not have. -/
def checkVisible (s : List Char) : Except ErrorKind Unit :=
  if s.contains '"' then .error .doubleQuote
  else if hasLooseParenthesis [] none s then .error .parenthesisNotSupported
  else if occursTwice '&' s && occursTwice '|' s then .error .mixedConnectors
  else if occursLessGreater s then .error .lessGreaterOperator
  else if hasSingleEquals none s then .error .singleEquals
  else .ok ()

end SqlTemplate.Condition
