import SqlTemplate.Evaluation.BoundSql
import SqlTemplate.Evaluation.Resolution
import SqlTemplate.Template.Node

/-!
# Values of variables

A bound variable gives a placeholder with its value, or a list of them where its test
value is parenthesized. An embedded variable gives the text of its value in the same two
shapes. Text that has directives in it is not taken as it is: what becomes of it is a
parameter here (`Embedding`).

A list stands for its elements that are not null; there must be one. Embedded text may
not hold a placeholder, and it is quoted if the test value, or the first element of its
list, is.
-/

namespace SqlTemplate.Template.Variable

open Text (quoteMark trim)

/-- What becomes of embedded text with directives. It is given the variable and where its
path leads, and the text. -/
abbrev Embedding := List Loop → Variable → Resolved → String → Except TemplateError BoundSql

def fail (v : Variable) (env : Environment) (kind : ErrorKind) : TemplateError :=
  env.error kind v.expression

/-- Follows the path of the variable and applies the LIKE option that counts. A null is
an error if the configuration says so. -/
def resolve (v : Variable) (env : Environment) (loops : List Loop) :
    Except TemplateError Resolved := do
  let r ← v.path.resolve v.expression env loops
  let r := r.withLike (v.options.effective (Loop.inheritedLike loops)) env.config.likeEscape
  if r.target.isNull && env.config.blockNull then .error (v.fail env .nullBlocked)
  else return r

/-- The elements that a list stands for. -/
def elements : Value → Except ErrorKind (List Value)
  | .list [] => .error .emptyList
  | .list items =>
    match items.filter (!·.isNull) with
    | [] => .error .nullOnlyList
    | present => .ok present
  | .null => .error .listValueNull
  | w => .error (.listExpected w.type.name)

/-- Refuses a list. -/
def scalar : Value → Except ErrorKind Value
  | .list items => .error (.scalarExpected (Value.list items).type.name)
  | w => .ok w

/-- The SQL with the escape clause of a pattern behind it. -/
def withRear (sql : BoundSql) (r : Resolved) (env : Environment) : BoundSql :=
  match r.rear? env.config.likeEscape with
  | some rear => sql ++ .ofSql rear
  | none => sql

/-- What a bound variable gives. -/
def bound (v : Variable) (env : Environment) (loops : List Loop) :
    Except TemplateError BoundSql := do
  let r ← v.resolve env loops
  if v.inScope then
    let present ← (elements r.target).mapError (v.fail env)
    return .ofValues present
  else
    let w ← (scalar r.target).mapError (v.fail env)
    return withRear (.ofValue w r.targetType) r env

/-- Whether a test value is a quoted literal. -/
def isQuoted (test : List Char) : Bool :=
  match trim test with
  | c :: d :: s => c == quoteMark && (d :: s).getLast? == some quoteMark
  | _ => false

/-- The first element of a parenthesized test value. -/
def firstElement? (test : List Char) : Option (List Char) :=
  (Text.dropStart? ['('] (trim test)).map fun s =>
    let inner := (Text.dropEnd? [')'] s).getD s
    match Text.cutAtChar? ',' inner with
    | some (first, _) => trim first
    | none => trim inner

/-- The text of a value as it is embedded. -/
def embeddedText (quoted : Bool) (w : Value) : Except ErrorKind String :=
  let s := w.text
  if s.toList.contains '?' then .error (.bindSymbolInEmbedded s)
  else if quoted && !w.isNull then .ok (Text.sqlQuote s)
  else .ok s

/-- Whether a text has a comment in it, going by the marks alone. -/
def hasComment (s : String) : Bool :=
  Text.occurs commentOpening s.toList && Text.occurs commentClosing s.toList

/-- What an embedded variable gives. -/
def embedded (embedding : Embedding) (v : Variable) (mode : EmbeddedMode) (env : Environment)
    (loops : List Loop) : Except TemplateError BoundSql := do
  let r ← v.resolve env loops
  if v.inScope then
    let present ← (elements r.target).mapError (v.fail env)
    let quoted := mode != .replaceOnly && (firstElement? v.testValue.toList).any isQuoted
    let parts ← (present.mapM (embeddedText quoted)).mapError (v.fail env)
    return .ofSql (BoundSql.listed parts)
  else
    let w ← (scalar r.target).mapError (v.fail env)
    match w.asString?.filter hasComment with
    | some text => embedding loops v r text
    | none =>
      let quoted := mode == .normal && isQuoted v.testValue.toList
      let s ← (embeddedText quoted w).mapError (v.fail env)
      return withRear (.ofSql s) r env

end SqlTemplate.Template.Variable
