import SqlTemplate.Number.Notation
import SqlTemplate.Text.Quoted
import SqlTemplate.Value.Basic

/-!
# Values as text

`Value.text` shows a value in messages and embeds it in SQL. A string is its own text;
inside a list, a map or an object it stands between quotation marks, with nothing
escaped. `Value.literal` is the SQL literal of a value: strings, dates and times are
quoted, everything else is its text.
-/

namespace SqlTemplate.Value

/-- A map, or the shown properties of an object, from the texts of its entries. -/
def braced (parts : List String) : String :=
  "\x7b" ++ ", ".intercalate parts ++ "\x7d"

mutual

/-- The value as text; `nested` holds inside another value. -/
def textAs (nested : Bool) : Value → String
  | .null => "null"
  | .bool b => if b then "true" else "false"
  | .int32 n => toString n.toInt
  | .int64 n => toString n.toInt
  | .float64 x => x.text
  | .decimal d => d.text
  | .string s => if nested then "\"" ++ s ++ "\"" else s
  | .bytes bs => "<" ++ toString bs.length ++ " bytes>"
  | .date d => d.text
  | .dateTime t => t.text
  | .time t => t.text
  | .list items => "[" ++ ", ".intercalate (itemTexts items) ++ "]"
  | .map entries =>
    braced ((entryTexts entries).map fun (name, s) => name ++ ": " ++ s)
  | .object ⟨_, typeName, properties, _, _, shown⟩ =>
    let texts := entryTexts properties
    typeName ++ braced (shown.map fun name => name ++ ": " ++ (texts.get? name).getD "null")

def itemTexts : List Value → List String
  | [] => []
  | v :: vs => textAs true v :: itemTexts vs

def entryTexts : List (String × Value) → Entries String
  | [] => []
  | (name, v) :: es => (name, textAs true v) :: entryTexts es

end

/-- The value as text. -/
def text (v : Value) : String :=
  textAs false v

/-- The SQL literal of the value. -/
def literal (v : Value) : String :=
  match v with
  | .string _ | .date _ | .dateTime _ | .time _ => Text.sqlQuote v.text
  | _ => v.text

end SqlTemplate.Value
