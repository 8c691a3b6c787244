import SqlTemplate.Condition.Basic
import SqlTemplate.Template.Directive
import SqlTemplate.Template.Options

/-!
# Nodes of a template

What a template says, as a list of trees. Blocks are the inner nodes; texts, connectors,
variables and separators are the leaves. A connector is the `and` or `or` at the start
of a conditional block, kept apart from the text behind it because it is dropped where
nothing stands before it. `argumentNames` lists the arguments that the nodes can look at.
-/

namespace SqlTemplate.Template

/-- A comment that stands for a value, and the test value behind it. -/
structure Variable where
  /-- The text of the path and its options. -/
  expression : String
  path : Path
  options : Options
  testValue : String
deriving DecidableEq, Repr

/-- Whether the variable stands for a list, as in the scope of `in`: its test value is
parenthesized. -/
def Variable.inScope (v : Variable) : Bool :=
  (Text.trimStart v.testValue.toList).head? == some '('

/-- A part of a template. -/
inductive Node where
  | text (s : String)
  /-- A connector and the text behind it. -/
  | connector (connector rest : String)
  /-- A value bound to a placeholder. -/
  | bind (v : Variable)
  /-- A value put into the SQL as text. -/
  | embedded (v : Variable) (mode : EmbeddedMode)
  /-- One of two parts, of which the second may be missing. -/
  | ifBlock (condition : Condition) (body : List Node) (otherwise : Option (List Node))
  /-- A part for each element of a list. -/
  | forBlock (expression : String) (path : Path) (options : Options) (body : List Node)
  /-- A part that counts only if something in it does. -/
  | block (body : List Node)
  /-- A part for the first element of a loop. -/
  | first (body : List Node)
  /-- A part for the last element of a loop. -/
  | last (body : List Node)
  /-- A text before each element of a loop but the first. -/
  | separator (s : String)
deriving Inhabited

namespace Node

mutual

/-- The arguments that the node can look at, in the order of the text, as often as they
occur. -/
def mentions : Node → List String
  | .text _ | .connector .. | .separator _ => []
  | .bind v | .embedded v _ => v.path.argument?.toList
  | .ifBlock condition body otherwise =>
    condition.argumentNames ++ mentionsAll body ++ mentionsOption otherwise
  | .forBlock _ path _ body => path.argument?.toList ++ mentionsAll body
  | .block body | .first body | .last body => mentionsAll body

def mentionsAll : List Node → List String
  | [] => []
  | n :: ns => mentions n ++ mentionsAll ns

def mentionsOption : Option (List Node) → List String
  | none => []
  | some ns => mentionsAll ns

end

end Node

/-- The arguments that the nodes can look at, each once, by their first occurrence. -/
def argumentNames (ns : List Node) : List String :=
  (Node.mentionsAll ns).eraseDups

/-- The connector at the start of a text with the blanks around it, and the rest. -/
def cutConnector? (s : List Char) : Option (List Char × List Char) :=
  let (lead, s) := s.span Text.isBlank
  let cut (word : List Char) : Option (List Char × List Char) :=
    let (found, s) := s.splitAt word.length
    let (gap, s) := s.span Text.isBlank
    if found.map Char.toLower = word ∧ gap ≠ [] then some (lead ++ found ++ gap, s) else none
  (cut "and".toList).or (cut "or".toList)

/-- Sets a connector at the start of the nodes apart. -/
def adjustConnector : List Node → List Node
  | .text s :: ns =>
    match cutConnector? s.toList with
    | some (connector, rest) =>
      .connector (String.ofList connector) (String.ofList rest) :: ns
    | none => .text s :: ns
  | ns => ns

end SqlTemplate.Template
