import SqlTemplate.Calendar.Basic
import SqlTemplate.Entries
import SqlTemplate.Number.Decimal
import SqlTemplate.Value.Type

/-!
# Values

The values a template is evaluated against. Besides scalars there are lists, maps with
entries in order, and objects: a thing with an identity and the name of its type, whose
properties and methods are read by name. An object declares types for properties, which
count where the property is null, and lists the names under which it is shown.

Numbers of every representation compare as decimals (`toDecimal?`), days and times as
times (`toDateTime?`).
-/

namespace SqlTemplate

/-- A thing with named properties and methods without arguments; `α` is the type of what
they give. -/
structure Object (α : Type) where
  /-- What tells the object from any other. -/
  identity : String
  typeName : String
  properties : List (String × α)
  methods : List (String × α)
  /-- The declared types of properties. -/
  declared : List (String × ValueType)
  /-- The names under which the object is shown, in order. -/
  shown : List String
deriving Inhabited

/-- A value of a parameter. -/
inductive Value where
  | null
  | bool (b : Bool)
  | int32 (n : Int32)
  | int64 (n : Int64)
  | float64 (x : Number.Binary64)
  | decimal (d : Number.Decimal)
  | string (s : String)
  | bytes (bs : List UInt8)
  | date (d : Calendar.Date)
  | dateTime (t : Calendar.DateTime)
  | time (t : Calendar.Time)
  | list (items : List Value)
  | map (entries : List (String × Value))
  | object (o : Object Value)
deriving Inhabited

namespace Value

def isNull : Value → Bool
  | .null => true
  | _ => false

/-- Whether the value is a number of any representation. -/
def isNumber : Value → Bool
  | .int32 _ | .int64 _ | .float64 _ | .decimal _ => true
  | _ => false

/-- Whether the value is a day or a time on a day. -/
def isDate : Value → Bool
  | .date _ | .dateTime _ => true
  | _ => false

def asString? : Value → Option String
  | .string s => some s
  | _ => none

def asBool? : Value → Option Bool
  | .bool b => some b
  | _ => none

def asList? : Value → Option (List Value)
  | .list items => some items
  | _ => none

def type : Value → ValueType
  | .null => .unknown
  | .bool _ => .boolean
  | .int32 _ => .integer
  | .int64 _ => .bigint
  | .float64 _ => .double
  | .decimal _ => .decimal
  | .string _ => .string
  | .bytes _ => .bytes
  | .date _ => .date
  | .dateTime _ => .timestamp
  | .time _ => .time
  | .list _ => .list
  | .map _ => .map
  | .object o => .object o.typeName

/-- The name of the type; null has a name of its own. -/
def typeLabel (v : Value) : String :=
  if v.isNull then "null" else v.type.name

/-- A number as a decimal. There is none for a binary number that is not finite or too
large. -/
def toDecimal? : Value → Option Number.Decimal
  | .int32 n => Number.Decimal.ofInt? n.toInt
  | .int64 n => Number.Decimal.ofInt? n.toInt
  | .float64 x => Number.Decimal.ofBinary64? x
  | .decimal d => some d
  | _ => none

/-- A day as its start, a time as itself. -/
def toDateTime? : Value → Option Calendar.DateTime
  | .date d => some (.atMidnight d)
  | .dateTime t => some t
  | _ => none

theorem isNull_iff (v : Value) : v.isNull ↔ v = .null := by
  cases v <;> simp [isNull]

theorem asString?_eq_some_iff (v : Value) {s : String} : v.asString? = some s ↔ v = .string s := by
  cases v <;> simp [asString?]

/-- Only null has the unknown type. -/
theorem type_eq_unknown_iff (v : Value) : v.type = .unknown ↔ v = .null := by
  cases v <;> simp [type]

theorem isSome_toDateTime?_iff (v : Value) : v.toDateTime?.isSome ↔ v.isDate := by
  cases v <;> simp [toDateTime?, isDate]

end Value

end SqlTemplate
