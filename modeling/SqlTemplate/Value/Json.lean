import SqlTemplate.Json.Number
import SqlTemplate.Value.Text

/-!
# Values and JSON

`Value.toJson` writes a value as a document, `Value.ofJson` reads a document as a value.
Integers of 64 bits, strings, booleans, null, lists and maps are kept. A greater integer
becomes a decimal, and every other number the decimal that its text denotes, rounded to
the places of a decimal, or a binary number where its power of ten is out of reach. In the
other direction decimals, dates and times become strings, and so does nothing else.
-/

namespace SqlTemplate.Value

open Number (Binary64 Decimal)

/-- Cuts the text of a number before its power of ten: the digits and the power. -/
def splitPower (s : List Char) : List Char × Int :=
  let (digits, rest) := s.span (· != 'e')
  (digits, ((Number.readPower rest).map Prod.fst).getD 0)

/-- The value of a binary number in a document: the decimal that its text reads as, if it
does. -/
def ofJsonFloat (x : Binary64) : Value :=
  let (digits, power) := splitPower (Json.numberText x).toList
  match Decimal.ofText? digits power with
  | some d => .decimal d
  | none => .float64 x

/-- The value of an integer in a document. -/
def ofJsonInt (n : Int) : Value :=
  if -Int.pow 2 63 ≤ n ∧ n < Int.pow 2 63 then .int64 (Int64.ofInt n)
  else
    match Decimal.ofInt? n with
    | some d => .decimal d
    | none => .float64 (Binary64.ofRatio (n < 0) n.natAbs 1)

mutual

/-- The value that a document denotes. -/
def ofJson : Json → Value
  | .null => .null
  | .bool b => .bool b
  | .int n => ofJsonInt n
  | .float x => ofJsonFloat x
  | .string s => .string s
  | .array items => .list (ofJsonItems items)
  | .object members => .map (ofJsonMembers members)

def ofJsonItems : List Json → List Value
  | [] => []
  | j :: js => ofJson j :: ofJsonItems js

def ofJsonMembers : List (String × Json) → Entries Value
  | [] => []
  | (name, j) :: ms => (name, ofJson j) :: ofJsonMembers ms

end

mutual

/-- The value as a document. -/
def toJson : Value → Json
  | .null => .null
  | .bool b => .bool b
  | .int32 n => .int n.toInt
  | .int64 n => .int n.toInt
  | .float64 x => if x.isFinite then .float x else .null
  | .decimal d => .string d.text
  | .string s => .string s
  | .bytes bs => .array (bs.map fun b => .int b.toNat)
  | .date d => .string d.text
  | .dateTime t => .string t.text
  | .time t => .string t.text
  | .list items => .array (toJsonItems items)
  | .map entries => Json.ofMembers (toJsonEntries entries)
  | .object ⟨_, _, properties, _, _, shown⟩ =>
    let documents := toJsonEntries properties
    Json.ofMembers (shown.map fun name => (name, (documents.get? name).getD .null))

def toJsonItems : List Value → List Json
  | [] => []
  | v :: vs => toJson v :: toJsonItems vs

def toJsonEntries : List (String × Value) → Entries Json
  | [] => []
  | (name, v) :: es => (name, toJson v) :: toJsonEntries es

end

end SqlTemplate.Value
