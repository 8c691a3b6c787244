import SqlTemplate.Calendar.Reading
import SqlTemplate.Condition.Basic
import SqlTemplate.Condition.Marking

/-!
# Reading conditions

The text of a condition is marked and checked, cut at its connective into clauses, and a
clause is cut at its first operator into terms. `Condition.ofText` gives the first fault
it meets in this order. Cutting is done on the marked text, so no operator is found in a
literal and no character is cut.
-/

namespace SqlTemplate

namespace Term

/-- The content of a date literal: the word for a date in any case, blanks, and a text
between quote marks without a line feed. -/
def dateContent? (s : List Char) : Option (List Char) :=
  let (word, rest) := s.splitAt 4
  if word.map Char.toLower = "date".toList ∧ rest.head?.any Text.isBlank then
    match Text.trimStart rest with
    | c :: r =>
      if c = Text.quoteMark then
        (Text.dropEnd? [Text.quoteMark] r).bind fun content =>
          if content.contains '\n' then none else some content
      else none
    | [] => none
  else none

/-- Whether a text is digits, of which there is at least one. -/
def isDigits (s : List Char) : Bool :=
  !s.isEmpty && s.all Char.isDigit

/-- Whether a text has the form of a number: an optional minus sign and digits, with
digits behind a point or without. -/
def isNumber (s : List Char) : Bool :=
  let digits :=
    match s with
    | '-' :: r => r
    | r => r
  match Text.cutAtChar? '.' digits with
  | none => isDigits digits
  | some (whole, places) => isDigits whole && isDigits places

/-- The literal that a text without blanks around it is one of the words for. -/
def ofWord? (s : List Char) : Option Term :=
  match String.ofList (s.map Char.toLower) with
  | "null" => some .null
  | "true" => some (.bool true)
  | "false" => some (.bool false)
  | _ => none

/-- Reads a string literal behind its opening mark; `source` is all of it. -/
def ofQuoted (source rest : List Char) : Except ErrorKind Term :=
  match Text.dropEnd? [Text.quoteMark] rest with
  | some content => .ok (.string (String.ofList (Text.undouble content)))
  | none => .error (.unterminatedLiteral (String.ofList source))

/-- Reads a text that is no word and no string: a date, a number or a path. -/
def ofUnquoted (s : List Char) : Except ErrorKind Term :=
  match dateContent? s with
  | some content =>
    match Calendar.DateTime.ofLiteral? content with
    | some t => .ok (.date t)
    | none => .error (.invalidDateLiteral (String.ofList content))
  | none =>
    let term :=
      if isNumber s then (Number.Decimal.ofText? s 0).map .number
      else (Path.ofText s).toOption.map .path
    match term with
    | some t => .ok t
    | none => .error (.invalidTerm (String.ofList s))

/-- Reads a term with blanks around it. -/
def ofText (s : List Char) : Except ErrorKind Term :=
  let s := Text.trim s
  match s with
  | [] => .error .emptyTerm
  | c :: rest =>
    match ofWord? s with
    | some t => .ok t
    | none => if c = Text.quoteMark then ofQuoted s rest else ofUnquoted s

end Term

namespace Clause

open Condition (Mark chars visibleChars)

/-- Cuts a marked text at its first operator. -/
def cutAtOperator? : List Mark → Option (List Mark × Operator × List Mark)
  | [] => none
  | m :: ms =>
    match Operator.ofStart? (visibleChars (m :: ms)) with
    | some (operator, _) => some ([], operator, (m :: ms).drop operator.symbol.length)
    | none =>
      (cutAtOperator? ms).map fun (left, operator, right) => (m :: left, operator, right)

/-- What the text of a clause without an operator says. -/
def standaloneOfText (s : List Char) : Except ErrorKind ClauseKind :=
  match s with
  | '!' :: term => (Term.ofText term).map (.standalone true)
  | term => (Term.ofText term).map (.standalone false)

def kindOfMarks (ms : List Mark) : Except ErrorKind ClauseKind :=
  match cutAtOperator? ms with
  | some (left, operator, right) => do
    let left ← Term.ofText (chars left)
    let right ← Term.ofText (chars right)
    return .comparison left operator right
  | none => standaloneOfText (Text.trim (chars ms))

def ofMarks (ms : List Mark) : Except ErrorKind Clause := do
  let kind ← kindOfMarks ms
  return ⟨String.ofList (Text.trim (chars ms)), kind⟩

end Clause

namespace Condition

/-- The parts of a marked text between the places where the given visible character stands
twice. -/
def splitAtTwice (c : Char) : List Mark → List (List Mark)
  | [] => [[]]
  | [m] => [[m]]
  | m :: n :: ms =>
    if m.visible = c ∧ n.visible = c then [] :: splitAtTwice c ms
    else
      match splitAtTwice c (n :: ms) with
      | [] => [[m]]
      | first :: rest => (m :: first) :: rest

/-- Reads a condition with blanks around it. -/
def ofText (s : List Char) : Except ErrorKind Condition := do
  let s := Text.trim s
  if s.isEmpty then .error .emptyExpression
  else do
    let marks ← markLiterals s
    checkVisible (visibleChars marks)
    let connective := if occursTwice '|' (visibleChars marks) then Connective.or else .and
    let clauses ← (splitAtTwice connective.mark marks).mapM Clause.ofMarks
    return ⟨String.ofList s, connective, clauses⟩

end Condition

end SqlTemplate
