import SqlTemplate.Template.Directive

/-!
# Lexemes of a template

A lexeme is a text or a comment together with the test value behind it. Which comments
take a test value depends on their bodies only, so a template is cut into lexemes before
its blocks are looked at. A fault in the text ends the list; the lexemes before it stand.
-/

namespace SqlTemplate.Template

/-- A piece of a template with the test value that belongs to it. -/
inductive Lexeme where
  | text (s : String)
  /-- A comment, where it starts, and its test value, which may be empty. -/
  | comment (body : List Char) (start : Text.Position) (testValue : List Char)
deriving DecidableEq, Repr

namespace Lexeme

/-- The pieces of the rest of a template, and the fault that ends them if one does. -/
def readAll (c : Cursor) : List Lexeme × Option ErrorKind :=
  match h : c.next with
  | .error kind => ([], some kind)
  | .ok (.stop, _) => ([], none)
  | .ok (.text s, c') =>
    have := Cursor.length_rest_next_lt h (by simp)
    let (lexemes, fault) := readAll c'
    (.text s :: lexemes, fault)
  | .ok (.comment body, c') =>
    have h₁ := Cursor.length_rest_next_lt h (by simp)
    match (Directive.ofBody body.toList).extent? with
    | none =>
      let (lexemes, fault) := readAll c'
      (.comment body.toList c.position [] :: lexemes, fault)
    | some extent =>
      have h₂ := c'.length_rest_testValue_le extent
      let (lexemes, fault) := readAll (c'.testValue extent).2
      (.comment body.toList c.position (c'.testValue extent).1 :: lexemes, fault)
termination_by c.rest.length

end Lexeme

end SqlTemplate.Template
