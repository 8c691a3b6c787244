import SqlTemplate.Json.Number
import SqlTemplate.Text.Split

/-!
# Reading JSON

A text is cut into tokens (`Token.ofText?`), and the tokens are put together by a machine
whose state holds the arrays and objects still open (`State`). The machine reads every
token once. A text is one document with nothing but blanks around it; arrays and objects
nest at most `maxNesting` deep.
-/

namespace SqlTemplate.Json

/-- The parts a document is written with. -/
inductive Token where
  | openArray
  | closeArray
  | openObject
  | closeObject
  | comma
  | colon
  | string (s : String)
  /-- A number or one of the words `null`, `true` and `false`. -/
  | scalar (j : Json)

/-- Where a string is being read. -/
inductive StringState where
  | plain
  /-- Behind a backslash. -/
  | escape
  /-- Before `left` hexadecimal digits of a code unit, `value` being read. The unit belongs
  to a pair if `high` is the first unit of it. -/
  | unit (high : Option Nat) (left value : Nat)
  /-- Before the backslash of the second unit of a pair. -/
  | pair (high : Nat)
  /-- Behind the backslash of the second unit of a pair. -/
  | pairMark (high : Nat)

/-- The character that a backslash and the given character stand for. -/
def escaped? (c : Char) : Option Char :=
  match c with
  | '"' => some '"'
  | '\\' => some '\\'
  | '/' => some '/'
  | 'b' => some '\x08'
  | 'f' => some '\x0c'
  | 'n' => some '\n'
  | 'r' => some '\r'
  | 't' => some '\t'
  | _ => none

/-- What a complete code unit of 16 bits leads to: a character, or the wait for the second
unit of a pair. A unit of a pair cannot stand alone. -/
def ofUnit? (high : Option Nat) (unit : Nat) : Option (Sum Char Nat) :=
  match high with
  | none =>
    if 0xD800 ≤ unit ∧ unit ≤ 0xDBFF then some (.inr unit)
    else if 0xDC00 ≤ unit ∧ unit ≤ 0xDFFF then none
    else some (.inl (Char.ofNat unit))
  | some high =>
    if 0xDC00 ≤ unit ∧ unit ≤ 0xDFFF then
      some (.inl (Char.ofNat (0x10000 + (high - 0xD800) * 0x400 + (unit - 0xDC00))))
    else none

/-- Reads the text of a string up to its closing mark. -/
def stringTail (state : StringState) : List Char → Option (List Char × List Char)
  | [] => none
  | c :: s =>
    match state with
    | .plain =>
      if c = '"' then some ([], s)
      else if c = '\\' then stringTail .escape s
      else if c.toNat < 0x20 then none
      else Text.consCut c (stringTail .plain s)
    | .escape =>
      if c = 'u' then stringTail (.unit none 4 0) s
      else
        match escaped? c with
        | some d => Text.consCut d (stringTail .plain s)
        | none => none
    | .unit high left value =>
      match Text.hexValue? c with
      | none => none
      | some d =>
        if 1 < left then stringTail (.unit high (left - 1) (value * 16 + d)) s
        else
          match ofUnit? high (value * 16 + d) with
          | some (.inl e) => Text.consCut e (stringTail .plain s)
          | some (.inr high) => stringTail (.pair high) s
          | none => none
    | .pair high => if c = '\\' then stringTail (.pairMark high) s else none
    | .pairMark high => if c = 'u' then stringTail (.unit (some high) 4 0) s else none

/-- Whether blanks of a document may contain the character. -/
def isSpace (c : Char) : Bool :=
  c == ' ' || c == '\n' || c == '\t' || c == '\r'

/-- The words of JSON with what they denote. -/
def words : List (String × Json) :=
  [("null", .null), ("true", .bool true), ("false", .bool false)]

/-- Reads the token at the start of a text that does not start with a blank. -/
def Token.ofStart? (s : List Char) : Option (Token × List Char) :=
  match s with
  | '[' :: r => some (.openArray, r)
  | ']' :: r => some (.closeArray, r)
  | '\x7b' :: r => some (.openObject, r)
  | '\x7d' :: r => some (.closeObject, r)
  | ',' :: r => some (.comma, r)
  | ':' :: r => some (.colon, r)
  | '"' :: r => (stringTail .plain r).map fun (cs, rest) => (.string (String.ofList cs), rest)
  | _ =>
    match words.findSome? fun (w, j) => (Text.dropStart? w.toList s).map ((j, ·)) with
    | some (j, rest) => some (.scalar j, rest)
    | none => (number? s).map fun (j, rest) => (.scalar j, rest)

/-- Cuts a text into at most `limit` tokens. -/
def Token.ofTextWithin? : Nat → List Char → Option (List Token)
  | 0, _ => none
  | limit + 1, s =>
    match s.dropWhile isSpace with
    | [] => some []
    | r =>
      match Token.ofStart? r with
      | some (t, rest) => (Token.ofTextWithin? limit rest).map (t :: ·)
      | none => none

/-- Cuts a text into tokens. A text has no more tokens than characters. -/
def Token.ofText? (s : List Char) : Option (List Token) :=
  Token.ofTextWithin? (s.length + 1) s

/-- An array or object that is not closed yet, with the parts read so far. -/
inductive Open where
  /-- An array with its items, the last one first. -/
  | array (items : List Json)
  /-- An object between two members. -/
  | object (members : Entries Json)
  /-- An object whose next member has its name. -/
  | member (members : Entries Json) (name : String)

/-- What may come next. -/
inductive Expected where
  | value
  /-- A value, or the end of the array just opened. -/
  | item
  | name
  /-- A name, or the end of the object just opened. -/
  | member
  | colon
  /-- A comma, or the end of the innermost array or object. -/
  | separator
deriving DecidableEq

/-- How far a document is read. -/
inductive State where
  | reading (nested : List Open) (expected : Expected)
  | finished (document : Json)

/-- The number of arrays and objects that may be open at once. -/
abbrev maxNesting : Nat := 127

namespace State

def start : State := .reading [] .value

/-- Takes up a complete value. -/
def complete? (nested : List Open) (j : Json) : Option State :=
  match nested with
  | [] => some (.finished j)
  | .array items :: outer => some (.reading (.array (j :: items) :: outer) .separator)
  | .member members name :: outer =>
    some (.reading (.object (insertMember name j members) :: outer) .separator)
  | .object _ :: _ => none

/-- Opens an array or object where a value may stand. -/
def open? (nested : List Open) (expected : Expected) (opened : Open) (next : Expected) :
    Option State :=
  if (expected = .value ∨ expected = .item) ∧ nested.length < maxNesting then
    some (.reading (opened :: nested) next)
  else none

/-- Reads one token. -/
def step? (state : State) (t : Token) : Option State :=
  match state with
  | .finished _ => none
  | .reading nested expected =>
    match t with
    | .openArray => open? nested expected (.array []) .item
    | .openObject => open? nested expected (.object []) .member
    | .closeArray =>
      match nested with
      | .array items :: outer =>
        if expected = .item ∨ expected = .separator then complete? outer (.array items.reverse)
        else none
      | _ => none
    | .closeObject =>
      match nested with
      | .object members :: outer =>
        if expected = .member ∨ expected = .separator then complete? outer (.object members)
        else none
      | _ => none
    | .comma =>
      match expected, nested with
      | .separator, .array _ :: _ => some (.reading nested .value)
      | .separator, .object _ :: _ => some (.reading nested .name)
      | _, _ => none
    | .colon => if expected = .colon then some (.reading nested .value) else none
    | .string s =>
      match expected, nested with
      | .name, .object members :: outer => some (.reading (.member members s :: outer) .colon)
      | .member, .object members :: outer => some (.reading (.member members s :: outer) .colon)
      | .value, _ => complete? nested (.string s)
      | .item, _ => complete? nested (.string s)
      | _, _ => none
    | .scalar j =>
      if expected = .value ∨ expected = .item then complete? nested j else none

end State

/-- Reads a text that is one document. -/
def ofText? (s : String) : Option Json := do
  let tokens ← Token.ofText? s.toList
  match ← tokens.foldlM State.step? State.start with
  | .finished j => some j
  | .reading _ _ => none

end SqlTemplate.Json
