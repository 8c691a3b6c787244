import SqlTemplate.Json.Number

/-!
# Writing JSON

`Json.compact` writes a document without any blanks, `Json.pretty` with one item or
member a line, indented by two spaces for each array and object around it. In strings
only the quotation mark, the backslash and the control characters are escaped.
-/

namespace SqlTemplate.Json

/-- The text of a character inside a string. -/
def charText (c : Char) : List Char :=
  match c with
  | '"' => ['\\', '"']
  | '\\' => ['\\', '\\']
  | '\x08' => ['\\', 'b']
  | '\x0c' => ['\\', 'f']
  | '\n' => ['\\', 'n']
  | '\r' => ['\\', 'r']
  | '\t' => ['\\', 't']
  | _ =>
    if c.toNat < 0x20 then
      let ds := Nat.toDigits 16 c.toNat
      '\\' :: 'u' :: (List.replicate (4 - ds.length) '0' ++ ds)
    else [c]

/-- A string between its marks. -/
def stringText (s : String) : String :=
  String.ofList ('"' :: (s.toList.flatMap charText ++ ['"']))

mutual

/-- The document without blanks. -/
def compact : Json → String
  | .null => "null"
  | .bool b => if b then "true" else "false"
  | .int n => toString n
  | .float x => numberText x
  | .string s => stringText s
  | .array items => "[" ++ ",".intercalate (compactItems items) ++ "]"
  | .object members => "\x7b" ++ ",".intercalate (compactMembers members) ++ "\x7d"

def compactItems : List Json → List String
  | [] => []
  | j :: js => compact j :: compactItems js

def compactMembers : List (String × Json) → List String
  | [] => []
  | (name, j) :: ms => (stringText name ++ ":" ++ compact j) :: compactMembers ms

end

/-- The start of a line inside `depth` arrays and objects. -/
def newLine (depth : Nat) : String :=
  "\n" ++ String.ofList (List.replicate (2 * depth) ' ')

/-- Parts one a line between an opening and a closing mark; the marks alone if there is no
part. -/
def block (opening closing : String) (depth : Nat) (parts : List String) : String :=
  if parts.isEmpty then opening ++ closing
  else
    opening ++ ",".intercalate (parts.map fun p => newLine (depth + 1) ++ p)
      ++ newLine depth ++ closing

mutual

/-- The document with one item or member a line, inside `depth` arrays and objects. -/
def prettyAt (depth : Nat) : Json → String
  | .array items => block "[" "]" depth (prettyItems (depth + 1) items)
  | .object members => block "\x7b" "\x7d" depth (prettyMembers (depth + 1) members)
  | .null => "null"
  | .bool b => if b then "true" else "false"
  | .int n => toString n
  | .float x => numberText x
  | .string s => stringText s

def prettyItems (depth : Nat) : List Json → List String
  | [] => []
  | j :: js => prettyAt depth j :: prettyItems depth js

def prettyMembers (depth : Nat) : List (String × Json) → List String
  | [] => []
  | (name, j) :: ms => (stringText name ++ ": " ++ prettyAt depth j) :: prettyMembers depth ms

end

/-- The document with one item or member a line. -/
def pretty (j : Json) : String :=
  prettyAt 0 j

end SqlTemplate.Json
