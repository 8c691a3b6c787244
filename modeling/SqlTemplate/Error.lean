/-!
# Errors of templates

What can be wrong with a template, with its evaluation, or with a comparison. Each kind of
fault has a category and a message (`ErrorKind.message`). A `TemplateError` adds where it
arose: the directive or path, the clause of a condition if there is one, the text of the
template, and the arguments it was evaluated with.
-/

namespace SqlTemplate

/-- The groups of faults. -/
inductive ErrorCategory where
  /-- A malformed template or condition. -/
  | structural
  /-- A path that cannot be followed. -/
  | resolution
  /-- A value that its place does not accept. -/
  | valuePolicy
  /-- A comparison that has no answer. -/
  | comparison
deriving DecidableEq, Repr

/-- The kinds of faults. -/
inductive ErrorKind where
  | unterminatedComment (line column : Nat)
  | unclosedBlock (directive : String) (line column : Nat)
  | unexpectedDirective (directive : String) (line column : Nat)
  | malformedDirective (reason : String) (line column : Nat)
  | loopVariableOutsideLoop
  | emptyExpression
  | parenthesisNotSupported
  | mixedConnectors
  | singleEquals
  | lessGreaterOperator
  | doubleQuote
  | unterminatedLiteral (literal : String)
  | emptyTerm
  | invalidTerm (term : String)
  | invalidDateLiteral (literal : String)
  | argumentNotFound (name : String)
  | nullIntermediate (path segment : String)
  | propertyNotFound (typeName property : String)
  | methodNotFound (typeName method : String)
  | indexOutOfRange (index size : Nat)
  | nonNumericIndex (raw : String)
  | notIndexable (typeName : String)
  | nullBlocked
  | listValueNull
  | emptyList
  | nullOnlyList
  | scalarExpected (typeName : String)
  | listExpected (typeName : String)
  | forSourceNotList (typeName : String)
  | bindSymbolInEmbedded (value : String)
  | dynamicDepthExceeded (max : Nat)
  | typeMismatch (left right : String)
  | unsupportedComparison (operator left right : String)
  | notBoolean (typeName : String)
deriving DecidableEq, Repr

namespace ErrorKind

def category : ErrorKind → ErrorCategory
  | .unterminatedComment .. | .unclosedBlock .. | .unexpectedDirective ..
  | .malformedDirective .. | .loopVariableOutsideLoop | .emptyExpression
  | .parenthesisNotSupported | .mixedConnectors | .singleEquals | .lessGreaterOperator
  | .doubleQuote | .unterminatedLiteral _ | .emptyTerm | .invalidTerm _
  | .invalidDateLiteral _ => .structural
  | .argumentNotFound _ | .nullIntermediate .. | .propertyNotFound .. | .methodNotFound ..
  | .indexOutOfRange .. | .nonNumericIndex _ | .notIndexable _ => .resolution
  | .nullBlocked | .listValueNull | .emptyList | .nullOnlyList | .scalarExpected _
  | .listExpected _ | .forSourceNotList _ | .bindSymbolInEmbedded _
  | .dynamicDepthExceeded _ => .valuePolicy
  | .typeMismatch .. | .unsupportedComparison .. | .notBoolean _ => .comparison

/-- A comment with the given body, as messages show it. -/
def shownComment (body : String) : String :=
  "/*" ++ body ++ "*/"

/-- A place in a text, as messages show it. -/
def shownPlace (line column : Nat) : String :=
  "line " ++ toString line ++ ", column " ++ toString column

def message : ErrorKind → String
  | .unterminatedComment line column =>
    "comment starting at " ++ shownPlace line column ++ " is not closed with */"
  | .unclosedBlock directive line column =>
    shownComment directive ++ " at " ++ shownPlace line column ++ " has no matching /*END*/"
  | .unexpectedDirective directive line column =>
    "unexpected " ++ shownComment directive ++ " at " ++ shownPlace line column
  | .malformedDirective reason line column =>
    "malformed directive at " ++ shownPlace line column ++ ": " ++ reason
  | .loopVariableOutsideLoop =>
    "the loop variable #current can only be used inside a FOR block"
  | .emptyExpression => "the IF expression is empty"
  | .parenthesisNotSupported =>
    "parentheses are not supported in IF expressions, use a boolean property instead"
  | .mixedConnectors => "'&&' and '||' cannot be mixed in one IF expression"
  | .singleEquals => "use '==' instead of '=' in IF expressions"
  | .lessGreaterOperator => "use '!=' instead of '<>' in IF expressions"
  | .doubleQuote => "double-quoted literals are not supported, use single quotes"
  | .unterminatedLiteral literal => "unterminated literal: " ++ literal
  | .emptyTerm => "a clause of the IF expression has an empty term"
  | .invalidTerm term => "invalid term in IF expression: " ++ term
  | .invalidDateLiteral literal => "invalid date literal: " ++ literal
  | .argumentNotFound name => "argument '" ++ name ++ "' was not found in the parameters"
  | .nullIntermediate path segment =>
    "'" ++ path ++ "' is null, cannot read '" ++ segment ++ "'"
  | .propertyNotFound typeName property => typeName ++ " has no property '" ++ property ++ "'"
  | .methodNotFound typeName method => typeName ++ " has no method '" ++ method ++ "()'"
  | .indexOutOfRange index size =>
    "index " ++ toString index ++ " is out of range for a list of size " ++ toString size
  | .nonNumericIndex raw => "list index must be a non-negative number: get(" ++ raw ++ ")"
  | .notIndexable typeName => typeName ++ " cannot be indexed with get(N)"
  | .nullBlocked => "the value is null and null parameters are blocked"
  | .listValueNull => "the list value for an IN-scope placeholder is null"
  | .emptyList => "the list value for an IN-scope placeholder is empty"
  | .nullOnlyList => "the list value for an IN-scope placeholder contains only nulls"
  | .scalarExpected typeName =>
    "a scalar placeholder cannot take a " ++ typeName
      ++ " value, use a parenthesized test value"
  | .listExpected typeName =>
    "a parenthesized placeholder needs a list value, got " ++ typeName
  | .forSourceNotList typeName => "the FOR source must be a list, got " ++ typeName
  | .bindSymbolInEmbedded value => "embedded value contains the bind symbol '?': " ++ value
  | .dynamicDepthExceeded max =>
    "dynamic embedding is nested deeper than " ++ toString max ++ " levels"
  | .typeMismatch left right => "cannot compare " ++ left ++ " with " ++ right
  | .unsupportedComparison operator left right =>
    "'" ++ operator ++ "' is not supported between " ++ left ++ " and " ++ right
  | .notBoolean typeName => "a standalone IF clause must be boolean, got " ++ typeName

end ErrorKind

/-- A fault and where it arose. -/
structure TemplateError where
  kind : ErrorKind
  /-- The directive or path at fault. -/
  expression : String
  /-- The clause of a condition at fault. -/
  clause : Option String
  /-- The text of the template. -/
  template : String
  /-- The arguments, as text. -/
  parameters : String
deriving DecidableEq, Repr

namespace TemplateError

/-- What stands for the arguments of a template that was not evaluated. -/
def notEvaluated : String := "(not evaluated)"

/-- A fault found while a template was parsed. -/
def structural (kind : ErrorKind) (expression template : String) : TemplateError :=
  ⟨kind, expression, none, template, notEvaluated⟩

def withClause (e : TemplateError) (clause : String) : TemplateError :=
  { e with clause := some clause }

/-- The error as text: what it is in the first line, where it arose in the others. -/
def message (e : TemplateError) : String :=
  let clause :=
    match e.clause with
    | some c => "\n  clause: " ++ c
    | none => ""
  e.kind.message ++ "\n  expression: " ++ e.expression ++ clause
    ++ "\n  template: " ++ e.template ++ "\n  parameters: " ++ e.parameters

end TemplateError

end SqlTemplate
