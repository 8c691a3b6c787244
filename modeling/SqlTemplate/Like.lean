/-!
# LIKE patterns

A LIKE option turns a text into a pattern: the wildcards in the text and the escape
character itself are escaped, and a wildcard is affixed where the option says. The SQL
behind such a pattern names the escape character (`Like.escapeClause`).
-/

namespace SqlTemplate

/-- Where a pattern goes on with any text. -/
inductive Like where
  /-- After the text. -/
  | startsWith
  /-- Before the text. -/
  | endsWith
  /-- On both sides. -/
  | contains
deriving DecidableEq, Repr

namespace Like

def keyword : Like → String
  | .startsWith => "likePrefix"
  | .endsWith => "likeSuffix"
  | .contains => "likeContain"

def ofKeyword? (s : String) : Option Like :=
  [startsWith, endsWith, contains].find? fun like => like.keyword = s

/-- The wildcard for any text. -/
abbrev anyText : Char := '%'

/-- The wildcard for any one character. -/
abbrev anyChar : Char := '_'

/-- The text with an escape character before each wildcard and each escape character. -/
def escapeWildcards (escape : Char) (s : List Char) : List Char :=
  s.flatMap fun c =>
    if c = escape ∨ c = anyText ∨ c = anyChar then [escape, c] else [c]

/-- The pattern for a text. -/
def pattern (like : Like) (escape : Char) (s : List Char) : List Char :=
  let escaped := escapeWildcards escape s
  match like with
  | .startsWith => escaped ++ [anyText]
  | .endsWith => anyText :: escaped
  | .contains => anyText :: (escaped ++ [anyText])

def apply (like : Like) (escape : Char) (s : String) : String :=
  String.ofList (like.pattern escape s.toList)

/-- The SQL that names the escape character, to stand behind a pattern. -/
def escapeClause (escape : Char) : String :=
  " escape '" ++ String.singleton escape ++ "'"

@[simp] theorem escapeWildcards_nil (escape : Char) : escapeWildcards escape [] = [] := rfl

theorem escapeWildcards_append (escape : Char) (s t : List Char) :
    escapeWildcards escape (s ++ t) = escapeWildcards escape s ++ escapeWildcards escape t := by
  simp [escapeWildcards]

theorem ofKeyword?_keyword (like : Like) : ofKeyword? like.keyword = some like := by
  cases like <;> rfl

end Like

end SqlTemplate
