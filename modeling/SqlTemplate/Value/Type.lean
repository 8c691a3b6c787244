import SqlTemplate.Entries
import SqlTemplate.Text.Split

/-!
# Value types

The type of a bound value, as it is reported beside the value. The type of an object is
named by the object. Types are read by several names each, in any case of ASCII letters;
the name of an object type follows the mark `object:`, which is read in this case only.
-/

namespace SqlTemplate

inductive ValueType where
  /-- The type of a null whose type nobody declared. -/
  | unknown
  | boolean
  | integer
  | bigint
  | double
  | decimal
  | string
  | bytes
  | date
  | timestamp
  | time
  | list
  | map
  /-- The type of an object, by its name. -/
  | object (name : String)
deriving DecidableEq, Repr, Inhabited

namespace ValueType

/-- The name that stands in reports and messages. -/
def name : ValueType → String
  | .unknown => "unknown"
  | .boolean => "boolean"
  | .integer => "integer"
  | .bigint => "bigint"
  | .double => "double"
  | .decimal => "decimal"
  | .string => "string"
  | .bytes => "bytes"
  | .date => "date"
  | .timestamp => "timestamp"
  | .time => "time"
  | .list => "list"
  | .map => "map"
  | .object name => name

/-- The mark before the name of an object type. -/
def objectMark : String := "object:"

/-- The names that types are declared by, in lower case. -/
def declaredNames : List (String × ValueType) :=
  [("unknown", .unknown), ("boolean", .boolean), ("bool", .boolean), ("integer", .integer),
    ("int", .integer), ("bigint", .bigint), ("long", .bigint), ("double", .double),
    ("float", .double), ("decimal", .decimal), ("numeric", .decimal), ("string", .string),
    ("text", .string), ("varchar", .string), ("bytes", .bytes), ("binary", .bytes),
    ("date", .date), ("timestamp", .timestamp), ("datetime", .timestamp), ("time", .time),
    ("list", .list), ("map", .map)]

/-- The type that a declaration names. -/
def ofText? (s : String) : Option ValueType :=
  match Text.dropStart? objectMark.toList s.toList with
  | some name => some (.object (String.ofList name))
  | none => Entries.get? (String.ofList (s.toList.map Char.toLower)) declaredNames

end ValueType

end SqlTemplate
