import SqlTemplate.Condition.Reading
import SqlTemplate.Template.Lexeme
import SqlTemplate.Template.Node

/-!
# Reading templates

A template is read by descent: a sequence of nodes goes on until the mark that ends the
block around it, and a block holds a sequence. What a single comment says is found first
(`Source.item`): it is a node of its own, opens a block, or ends one. `Source.sequence`
then puts the nodes together, and `readNodes` reads a whole text.

The first fault in the order of the text is reported. A block without an end is a fault at
the end of the text, and of several the innermost is named.
-/

namespace SqlTemplate.Template

open Text (Position trim)

/-- The text that is read, and the fault that ends its lexemes if one does. -/
structure Source where
  text : String
  fault : Option ErrorKind

/-- The comment at which something is found. -/
structure Place where
  body : List Char
  start : Position

namespace Place

/-- The body of the comment, as messages show it. -/
def directive (p : Place) : String :=
  String.ofList (trim p.body)

end Place

namespace Source

/-- A fault of the text. -/
def fail (s : Source) (kind : ErrorKind) (expression : List Char) : TemplateError :=
  .structural kind (String.ofList expression) s.text

/-- A fault in what a comment says. -/
def malformed (s : Source) (p : Place) (reason : String) : TemplateError :=
  s.fail (.malformedDirective reason p.start.line p.start.column) p.body

/-- A comment where it has no meaning. -/
def unexpected (s : Source) (p : Place) : TemplateError :=
  s.fail (.unexpectedDirective p.directive p.start.line p.start.column) p.body

/-- Reads a path and its options. Outside of loops neither a loop element nor an option
against taking over from a loop is accepted. -/
def readPath (s : Source) (inLoop : Bool) (p : Place) (expression : List Char) :
    Except TemplateError (Path × Options) := do
  let (path, options) ← (Options.split (String.ofList expression)).mapError (s.malformed p)
  let path ← (Path.ofText path).mapError (s.malformed p)
  if !inLoop && path.usesLoop then
    .error (s.fail .loopVariableOutsideLoop (trim expression))
  else if !inLoop && options.notLike then
    .error (s.malformed p "notLike can only be used inside a FOR block")
  else return (path, options)

def readVariable (s : Source) (inLoop : Bool) (p : Place) (expression testValue : List Char) :
    Except TemplateError Variable := do
  let (path, options) ← s.readPath inLoop p expression
  return ⟨String.ofList (trim expression), path, options, String.ofList testValue⟩

def readCondition (s : Source) (inLoop : Bool) (expression : List Char) :
    Except TemplateError Condition := do
  let condition ← (Condition.ofText expression).mapError (s.fail · (trim expression))
  if !inLoop && condition.usesLoop then
    .error (s.fail .loopVariableOutsideLoop (trim expression))
  else return condition

/-- The text in quote marks, with blanks around it. -/
def quoted? (text : List Char) : Option (List Char) :=
  (Text.dropStart? [Text.quoteMark] (trim text)).bind fun s =>
    (Text.dropEnd? [Text.quoteMark] s).map Text.undouble

end Source

/-- What kind of block a comment opens. -/
inductive Opening where
  | ifBlock (condition : Condition)
  | forBlock (expression : String) (path : Path) (options : Options)
  | block
  | first
  | last

namespace Opening

/-- Whether the nodes in the block stand in a loop because of it. -/
def isLoop : Opening → Bool
  | .forBlock .. => true
  | _ => false

/-- Whether the block may have a second part. -/
def allowsElse : Opening → Bool
  | .ifBlock _ => true
  | _ => false

/-- The block with the nodes in it. -/
def node (o : Opening) (body : List Node) (otherwise : Option (List Node)) : Node :=
  match o with
  | .ifBlock condition =>
    .ifBlock condition (adjustConnector body) (otherwise.map adjustConnector)
  | .forBlock expression path options => .forBlock expression path options body
  | .block => .block body
  | .first => .first body
  | .last => .last body

end Opening

/-- What ends a sequence of nodes. -/
inductive Closing where
  /-- The end of the text. -/
  | stop
  | endMark
  | elseMark
deriving DecidableEq, Repr

/-- What a comment is to the sequence it stands in. -/
inductive Item where
  | node (n : Node)
  | opening (o : Opening)
  | closing (c : Closing)

/-- Reads what a comment says. -/
def Source.item (s : Source) (inLoop : Bool) (p : Place) (testValue : List Char) :
    Except TemplateError Item :=
  match Directive.ofBody p.body with
  | .plain => .ok (.node (.text (String.ofList (commentText p.body))))
  | .bind expression => do
    return .node (.bind (← s.readVariable inLoop p expression testValue))
  | .embedded mode expression => do
    return .node (.embedded (← s.readVariable inLoop p expression testValue) mode)
  | .ifMark expression => do
    return .opening (.ifBlock (← s.readCondition inLoop expression))
  | .forMark expression => do
    let (path, options) ← s.readPath inLoop p expression
    if options.notLike then
      .error (s.malformed p "notLike cannot be used on a FOR source")
    else return .opening (.forBlock (String.ofList (trim expression)) path options)
  | .beginMark => .ok (.opening .block)
  | .firstMark => if inLoop then .ok (.opening .first) else .error (s.unexpected p)
  | .lastMark => if inLoop then .ok (.opening .last) else .error (s.unexpected p)
  | .nextMark text =>
    if inLoop then
      match Source.quoted? text with
      | some text => .ok (.node (.separator (String.ofList text)))
      | none => .error (s.malformed p "NEXT needs a quoted text")
    else .error (s.unexpected p)
  | .elseMark => .ok (.closing .elseMark)
  | .endMark => .ok (.closing .endMark)

/-- A block that is not closed yet. -/
structure OpenBlock where
  place : Place
  /-- Whether a second part may still follow. -/
  allowsElse : Bool

/-- Whether the mark may end a sequence in the given block. -/
def Closing.closes (c : Closing) : Option OpenBlock → Bool
  | none => c = .stop
  | some block =>
    match c with
    | .stop => false
    | .endMark => true
    | .elseMark => block.allowsElse

/-- Nodes from the start of some lexemes, what ended them, and the lexemes behind that. -/
structure Sequence (ls : List Lexeme) where
  nodes : List Node
  closing : Closing
  rest : List Lexeme
  length_rest_le : rest.length ≤ ls.length

namespace Sequence

/-- A sequence without nodes before some lexemes. -/
def empty (closing : Closing) {rest ls : List Lexeme} (h : rest.length ≤ ls.length) :
    Sequence ls :=
  ⟨[], closing, rest, h⟩

/-- The sequence with one more node in front. -/
def cons (n : Node) {ks ls : List Lexeme} (r : Sequence ks) (h : ks.length ≤ ls.length) :
    Sequence ls :=
  ⟨n :: r.nodes, r.closing, r.rest, Nat.le_trans r.length_rest_le h⟩

end Sequence

/-- Reads nodes up to the mark that ends the given block, or to the end of the text where
there is none. -/
def Source.sequence (s : Source) (inLoop : Bool) (block : Option OpenBlock) :
    (ls : List Lexeme) → Except TemplateError (Sequence ls)
  | [] =>
    match s.fault, block with
    | some kind, _ => .error (s.fail kind [])
    | none, none => .ok (.empty .stop (Nat.le_refl _))
    | none, some b =>
      let p := b.place
      .error (s.fail (.unclosedBlock p.directive p.start.line p.start.column) (trim p.body))
  | .text t :: ls => do
    let rest ← s.sequence inLoop block ls
    return rest.cons (.text t) (by simp)
  | .comment body start testValue :: ls => do
    match ← s.item inLoop ⟨body, start⟩ testValue with
    | .node n =>
      let rest ← s.sequence inLoop block ls
      return rest.cons n (by simp)
    | .closing c =>
      if c.closes block then return .empty c (Nat.le_succ _)
      else .error (s.unexpected ⟨body, start⟩)
    | .opening o =>
      let inner := inLoop || o.isLoop
      let part ← s.sequence inner (some ⟨⟨body, start⟩, o.allowsElse⟩) ls
      have h₁ := part.length_rest_le
      if part.closing = .elseMark then
        let second ← s.sequence inner (some ⟨⟨body, start⟩, false⟩) part.rest
        have h₂ := second.length_rest_le
        let rest ← s.sequence inLoop block second.rest
        return rest.cons (o.node part.nodes (some second.nodes)) (by simp; omega)
      else
        let rest ← s.sequence inLoop block part.rest
        return rest.cons (o.node part.nodes none) (by simp; omega)
termination_by ls => ls.length

/-- Reads the nodes of a text. The flag says whether the text stands in a loop. -/
def readNodes (text : String) (inLoop : Bool) : Except TemplateError (List Node) := do
  let (lexemes, fault) := Lexeme.readAll (.ofText text)
  let whole ← Source.sequence ⟨text, fault⟩ inLoop none lexemes
  return whole.nodes

end SqlTemplate.Template

namespace SqlTemplate

/-- A template: its text and what it says. -/
structure Template where
  source : String
  nodes : List Template.Node

namespace Template

/-- Reads a template. -/
def ofText (source : String) : Except TemplateError Template := do
  return ⟨source, ← readNodes source false⟩

/-- The arguments that the template can look at, each once. -/
def arguments (t : Template) : List String :=
  argumentNames t.nodes

end Template

end SqlTemplate
