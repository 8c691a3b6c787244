import SqlTemplate.Value.Text

/-!
# SQL with bound values

The result of an evaluation: SQL text with placeholders, the values for the placeholders
in order, and the type of each. Pieces of it are joined end to end (`++`), so what is
added later never changes what is there.

`BoundSql.display` is the SQL with its values written into it, for people to read. A
placeholder is a question mark outside of string literals and line comments; a block
comment is no exception.
-/

namespace SqlTemplate

/-- SQL, the values bound to its placeholders, and their types. -/
@[ext]
structure BoundSql where
  sql : String
  values : List Value
  types : List ValueType
deriving Inhabited

namespace BoundSql

def empty : BoundSql := ⟨"", [], []⟩

def ofSql (sql : String) : BoundSql := ⟨sql, [], []⟩

/-- SQL with the second part behind the first. -/
def append (a b : BoundSql) : BoundSql :=
  ⟨a.sql ++ b.sql, a.values ++ b.values, a.types ++ b.types⟩

instance : Append BoundSql := ⟨append⟩

def placeholder : String := "?"

/-- A placeholder with its value. -/
def ofValue (v : Value) (type : ValueType) : BoundSql := ⟨placeholder, [v], [type]⟩

/-- Texts as a list in SQL. -/
def listed (parts : List String) : String :=
  "(" ++ ", ".intercalate parts ++ ")"

/-- A list of placeholders with their values. -/
def ofValues (vs : List Value) : BoundSql :=
  ⟨listed (vs.map fun _ => placeholder), vs, vs.map Value.type⟩

@[simp] theorem append_sql (a b : BoundSql) : (a ++ b).sql = a.sql ++ b.sql := rfl

@[simp] theorem append_values (a b : BoundSql) : (a ++ b).values = a.values ++ b.values := rfl

@[simp] theorem append_types (a b : BoundSql) : (a ++ b).types = a.types ++ b.types := rfl

@[simp] theorem empty_append (a : BoundSql) : empty ++ a = a := by
  ext1 <;> simp [empty]

@[simp] theorem append_empty (a : BoundSql) : a ++ empty = a := by
  ext1 <;> simp [empty]

theorem append_assoc (a b c : BoundSql) : a ++ b ++ c = a ++ (b ++ c) := by
  ext1 <;> simp [String.append_assoc]

/-- The text with values written in place of its placeholders, while there are any. The
flags say whether the text starts in a string literal and in a line comment. -/
def displayFrom (literal comment : Bool) (values : List Value) : List Char → List Char
  | [] => []
  | c :: s =>
    if comment then c :: displayFrom literal (c != '\n') values s
    else if c = '-' ∧ !literal ∧ s.head? = some '-' then
      c :: displayFrom literal true values s
    else if c = Text.quoteMark then c :: displayFrom (!literal) false values s
    else if c = '?' ∧ !literal then
      match values with
      | v :: vs => v.literal.toList ++ displayFrom literal false vs s
      | [] => c :: displayFrom literal false [] s
    else c :: displayFrom literal false values s

/-- The SQL with the values written into it. -/
def display (b : BoundSql) : String :=
  String.ofList (displayFrom false false b.values b.sql.toList)

end BoundSql

end SqlTemplate
