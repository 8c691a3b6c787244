import SqlTemplate.Text.Blank
import SqlTemplate.Text.Letter
import SqlTemplate.Text.Split

/-!
# Paths

A path starts at an argument or at the element of the innermost loop and goes on by
properties, list elements and methods, for instance `order.lines.get(0).total()`. Its
written form (`Path.text`) joins the parts with points; reading it (`Path.ofText`) allows
blanks around each part. The index of a list element is kept as written: whether it is a
number shows when the path is followed.
-/

namespace SqlTemplate

/-- The name of the element of the innermost loop. -/
def loopVariable : String := "#current"

/-- Where a path starts. -/
inductive PathRoot where
  | argument (name : String)
  /-- At the element of the innermost loop. -/
  | loop
deriving DecidableEq, Repr

/-- A step of a path. -/
inductive Segment where
  /-- To a property of an object or an entry of a map. -/
  | property (name : String)
  /-- To an element of a list. -/
  | index (raw : String)
  /-- To what a method without arguments gives. -/
  | method (name : String)
deriving DecidableEq, Repr

/-- A way from an argument or a loop element to a value. -/
structure Path where
  root : PathRoot
  segments : List Segment
deriving DecidableEq, Repr

def PathRoot.text : PathRoot → String
  | .argument name => name
  | .loop => loopVariable

namespace Segment

def text : Segment → String
  | .property name => name
  | .index raw => "get(" ++ raw ++ ")"
  | .method name => name ++ "()"

/-- Reads a step without blanks around it; `path` is the whole path, for messages. -/
def ofText (path : String) (part : List Char) : Except String Segment :=
  match Text.dropEnd? "()".toList part with
  | some name =>
    if Text.isIdentifier name then .ok (.method (String.ofList name))
    else .error ("invalid method '" ++ String.ofList part ++ "' in '" ++ path ++ "'")
  | none =>
    match (Text.dropStart? "get(".toList part).bind (Text.dropEnd? ")".toList) with
    | some raw => .ok (.index (String.ofList (Text.trim raw)))
    | none =>
      if Text.isIdentifier part then .ok (.property (String.ofList part))
      else .error ("invalid segment '" ++ String.ofList part ++ "' in '" ++ path ++ "'")

end Segment

namespace Path

def text (p : Path) : String :=
  ".".intercalate (p.root.text :: p.segments.map Segment.text)

/-- Reads the root without blanks around it; `path` is the whole path, for messages. -/
def rootOfText (path : String) (part : List Char) : Except String PathRoot :=
  if part = loopVariable.toList then .ok .loop
  else if Text.isIdentifier part then .ok (.argument (String.ofList part))
  else .error ("'" ++ path ++ "' does not start with an argument name")

/-- Reads a path. The reason why a text is no path is given in words. -/
def ofText (s : List Char) : Except String Path :=
  let path := String.ofList s
  match (Text.fields '.' s).map Text.trim with
  | [] => .error ("'" ++ path ++ "' does not start with an argument name")
  | first :: rest => do
    let root ← rootOfText path first
    let segments ← rest.mapM (Segment.ofText path)
    return ⟨root, segments⟩

/-- The argument that the path starts at, if it does. -/
def argument? (p : Path) : Option String :=
  match p.root with
  | .argument name => some name
  | .loop => none

/-- Whether the path starts at the element of a loop. -/
def usesLoop (p : Path) : Bool :=
  p.root = .loop

/-- A path starts either at an argument or at a loop element. -/
theorem usesLoop_iff (p : Path) : p.usesLoop ↔ p.argument? = none := by
  cases p with
  | mk root segments => cases root <;> simp [usesLoop, argument?]

end Path

end SqlTemplate
