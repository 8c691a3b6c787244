import SqlTemplate.Text.Blank
import SqlTemplate.Text.Quoted

/-!
# Configuration

What of the evaluation of templates can be chosen. `Config.validate` refuses values that
make no sense: a bound of zero, and escape characters that mean something in SQL or in a
LIKE pattern.
-/

namespace SqlTemplate

/-- The choices for the evaluation of templates. -/
structure Config where
  /-- Whether a null for a variable is an error. -/
  blockNull : Bool := false
  /-- How deep embedded values may hold directives. -/
  maxDynamicDepth : Nat := 8
  /-- Whether a connector is dropped where nothing stands before it in its block. -/
  adjustConnector : Bool := true
  /-- The escape character of LIKE patterns. -/
  likeEscape : Char := '|'
deriving DecidableEq, Repr

/-- Why a configuration is refused. -/
inductive ConfigError where
  /-- The text is no configuration document. -/
  | document
  | noDynamicDepth
  | likeEscape (c : Char)
deriving DecidableEq, Repr

namespace ConfigError

/-- The digits of a number to the base sixteen, with small letters. -/
def hexDigits (n : Nat) : List Char :=
  Nat.toDigits 16 n

/-- A character between quote marks, as messages show it. Blanks other than the space are
shown by an escape. -/
def shownChar (c : Char) : String :=
  let shown :=
    if c = '\'' ∨ c = '\\' then ['\\', c]
    else if c = '\t' then ['\\', 't']
    else if c = '\n' then ['\\', 'n']
    else if c = '\r' then ['\\', 'r']
    else if Text.isBlank c ∧ c ≠ ' ' then
      ['\\', 'u', '\x7b'] ++ hexDigits c.toNat ++ ['\x7d']
    else [c]
  String.ofList ('\'' :: (shown ++ ['\'']))

/-- What is wrong, in one line; nothing for a text that cannot be read. -/
def message? : ConfigError → Option String
  | .document => none
  | .noDynamicDepth => some "Configuration error: max_dynamic_depth must be at least 1"
  | .likeEscape c => some ("Configuration error: like_escape cannot be " ++ shownChar c)

end ConfigError

namespace Config

/-- Whether a character cannot be the escape character. -/
def isUnfitEscape (c : Char) : Bool :=
  c == '%' || c == '_' || c == Text.quoteMark || c == '?' || Text.isBlank c

/-- Refuses values that make no sense. -/
def validate (c : Config) : Except ConfigError Config :=
  if c.maxDynamicDepth = 0 then .error .noDynamicDepth
  else if isUnfitEscape c.likeEscape then .error (.likeEscape c.likeEscape)
  else .ok c

end Config

end SqlTemplate
