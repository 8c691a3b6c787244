import SqlTemplate.Template.Token
import SqlTemplate.Text.Letter

/-!
# Directives

What the body of a comment asks for (`Directive.ofBody`): the start or end of a block, a
value, or nothing at all, in which case the comment is plain SQL. Words without an
operand may have blanks around them; a word with an operand starts the body and is
followed by a space.
-/

namespace SqlTemplate.Template

/-- How an embedded value is put into the SQL. -/
inductive EmbeddedMode where
  /-- In place of a test value, and quoted if the test value is. -/
  | normal
  /-- In front of what follows, without a test value. -/
  | replaceOnly
  /-- In place of a test value that ends at a point. -/
  | terminalPoint
deriving DecidableEq, Repr

/-- What a comment asks for. -/
inductive Directive where
  | ifMark (expression : List Char)
  | elseMark
  | endMark
  | forMark (expression : List Char)
  | beginMark
  | firstMark
  | lastMark
  | nextMark (text : List Char)
  /-- A value bound to a placeholder. -/
  | bind (expression : List Char)
  /-- A value put into the SQL as text. -/
  | embedded (mode : EmbeddedMode) (expression : List Char)
  | plain
deriving DecidableEq, Repr

namespace EmbeddedMode

/-- What the body of a comment in this mode starts with. -/
def sigil : EmbeddedMode → String
  | .normal => "$"
  | .replaceOnly => "$$"
  | .terminalPoint => "$."

/-- How far a test value goes, where there is one. -/
def extent? : EmbeddedMode → Option Extent
  | .normal => some .full
  | .replaceOnly => none
  | .terminalPoint => some .untilPoint

end EmbeddedMode

namespace Directive

/-- The directive without an operand that a text without blanks around it names. -/
def ofKeyword? : String → Option Directive
  | "ELSE" => some .elseMark
  | "END" => some .endMark
  | "BEGIN" => some .beginMark
  | "FIRST" => some .firstMark
  | "LAST" => some .lastMark
  | _ => none

/-- The starts of a body that make a directive of what follows, in the order in which they
are tried. -/
def openings : List (String × (List Char → Directive)) :=
  [("IF ", .ifMark), ("FOR ", .forMark), ("NEXT ", .nextMark),
    (EmbeddedMode.replaceOnly.sigil, .embedded .replaceOnly),
    (EmbeddedMode.terminalPoint.sigil, .embedded .terminalPoint),
    (EmbeddedMode.normal.sigil, .embedded .normal)]

/-- Whether a body that is no other directive names a value: it starts like an argument
or like the element of a loop. -/
def namesValue : List Char → Bool
  | [] => false
  | c :: _ => Text.startsIdentifier c || c == '#'

/-- What the body of a comment asks for. -/
def ofBody (body : List Char) : Directive :=
  match ofKeyword? (String.ofList (Text.trim body)) with
  | some d => d
  | none =>
    match openings.findSome? fun (start, d) => (Text.dropStart? start.toList body).map d with
    | some d => d
    | none => if namesValue body then .bind body else .plain

/-- How far the test value behind the directive goes, where there is one. -/
def extent? : Directive → Option Extent
  | .bind _ => some .full
  | .embedded mode _ => mode.extent?
  | _ => none

end Directive

end SqlTemplate.Template
