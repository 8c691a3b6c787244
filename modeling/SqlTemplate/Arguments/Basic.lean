import SqlTemplate.Value.Text

/-!
# Arguments

The values that a template is evaluated with, by name and in order, and types declared
for some of them. A declared type takes the place of the type of the value
(`Arguments.typeOf`), so it tells the type of a null.
-/

namespace SqlTemplate

/-- The arguments of a template. -/
structure Arguments where
  values : Entries Value
  /-- The declared types of arguments. -/
  types : Entries ValueType
deriving Inhabited

namespace Arguments

def empty : Arguments := ⟨[], []⟩

def single (name : String) (v : Value) (type : ValueType) : Arguments :=
  ⟨[(name, v)], [(name, type)]⟩

/-- The type of an argument with the given value: the declared one, or that of the value. -/
def typeOf (a : Arguments) (name : String) (v : Value) : ValueType :=
  (a.types.get? name).getD v.type

def text (a : Arguments) : String :=
  if a.values.isEmpty then "(none)"
  else ", ".intercalate (a.values.map fun (name, v) => name ++ "=" ++ v.text)

/-- The arguments with one more, or another value for one. -/
def put (a : Arguments) (name : String) (v : Value) : Arguments :=
  { a with values := a.values.put name v }

def declare (a : Arguments) (name : String) (type : ValueType) : Arguments :=
  { a with types := a.types.put name type }

end Arguments

end SqlTemplate
