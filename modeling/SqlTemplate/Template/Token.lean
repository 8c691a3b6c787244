import SqlTemplate.Error
import SqlTemplate.Text.Blank
import SqlTemplate.Text.Position
import SqlTemplate.Text.Quoted
import SqlTemplate.Text.Split

/-!
# Tokens of a template

A template is a sequence of texts and block comments. A text goes up to the next comment
that starts outside of a string literal and of a line comment; it keeps the line comments
in it. A block comment goes up to the first closing mark and does not nest.

Behind a comment that stands for a value there may be a test value, which makes the
template run as plain SQL: a string literal, a pair of parentheses with what is between
them, or a word (`testValue`). Everything here cuts a text in two, and the parts joined
are the text (`spanText_append`, `testValue_append`). A `Cursor` adds where the rest
starts.
-/

namespace SqlTemplate.Template

open Text (Position quoteMark startsWith)

/-- A token of a template. -/
inductive Token where
  | text (s : String)
  | comment (body : String)
  /-- The end of the template. -/
  | stop
deriving DecidableEq, Repr

def commentOpening : List Char := ['/', '*']

def commentClosing : List Char := ['*', '/']

/-- The comment with the given body. -/
def commentText (body : List Char) : List Char :=
  commentOpening ++ body ++ commentClosing

def lineCommentMark : List Char := ['-', '-']

/-- What the characters of a text are part of. -/
inductive TextMode where
  | code
  | literal
  | lineComment
deriving DecidableEq, Repr

/-- Cuts the text at its first comment outside of literals and line comments. -/
def spanText (mode : TextMode) : List Char → List Char × List Char
  | [] => ([], [])
  | c :: s =>
    match mode with
    | .code =>
      if startsWith commentOpening (c :: s) then ([], c :: s)
      else if startsWith lineCommentMark (c :: s) then
        let (text, rest) := spanText .lineComment s
        (c :: text, rest)
      else
        let (text, rest) := spanText (if c = quoteMark then .literal else .code) s
        (c :: text, rest)
    | .literal =>
      let (text, rest) := spanText (if c = quoteMark then .code else .literal) s
      (c :: text, rest)
    | .lineComment =>
      let (text, rest) := spanText (if c = '\n' then .code else .lineComment) s
      (c :: text, rest)

/-- How far a test value that is a word goes. -/
inductive Extent where
  /-- Up to what ends a word. -/
  | full
  /-- Up to a point, or what ends a word. -/
  | untilPoint
deriving DecidableEq, Repr

/-- Whether a word ends before the text. -/
def endsWord (extent : Extent) : List Char → Bool
  | [] => true
  | c :: s =>
    Text.isBlank c || c == ',' || c == '(' || c == ')' || c == ';' || c == quoteMark
      || (extent == .untilPoint && c == '.')
      || startsWith commentOpening (c :: s) || startsWith lineCommentMark (c :: s)

/-- Cuts the text at the end of the word at its start. -/
def spanWord (extent : Extent) : List Char → List Char × List Char
  | [] => ([], [])
  | c :: s =>
    if endsWord extent (c :: s) then ([], c :: s)
    else
      let (word, rest) := spanWord extent s
      (c :: word, rest)

/-- Cuts the text behind the parenthesis that brings the depth to zero. Parentheses in
string literals do not count; `literal` says whether the text starts in one. All of the
text is taken where there is no such parenthesis. -/
def spanParentheses (depth : Nat) (literal : Bool) : List Char → List Char × List Char
  | [] => ([], [])
  | c :: s =>
    let more (depth : Nat) (literal : Bool) : List Char × List Char :=
      let (inside, rest) := spanParentheses depth literal s
      (c :: inside, rest)
    if c = quoteMark then more depth !literal
    else if literal then more depth literal
    else if c = '(' then more (depth + 1) literal
    else if c = ')' then
      if depth ≤ 1 then ([c], s) else more (depth - 1) literal
    else more depth literal

/-- Cuts the test value off the text: the value, which may be empty, and the rest. -/
def testValue (extent : Extent) : List Char → List Char × List Char
  | [] => ([], [])
  | c :: s =>
    if c = quoteMark then
      let (literal, rest) := Text.literalTail s
      (c :: literal, rest)
    else if c = '(' then spanParentheses 0 false (c :: s)
    else spanWord extent (c :: s)

theorem spanText_append (mode : TextMode) (s : List Char) :
    (spanText mode s).1 ++ (spanText mode s).2 = s := by
  fun_induction spanText mode s <;> simp_all

theorem spanWord_append (extent : Extent) (s : List Char) :
    (spanWord extent s).1 ++ (spanWord extent s).2 = s := by
  fun_induction spanWord extent s <;> simp_all

theorem spanParentheses_append (depth : Nat) (literal : Bool) (s : List Char) :
    (spanParentheses depth literal s).1 ++ (spanParentheses depth literal s).2 = s := by
  induction s generalizing depth literal with
  | nil => rfl
  | cons c s ih => grind [spanParentheses]

/-- Cutting off a test value loses nothing. -/
theorem testValue_append (extent : Extent) (s : List Char) :
    (testValue extent s).1 ++ (testValue extent s).2 = s := by
  cases s with
  | nil => rfl
  | cons c s =>
    rw [testValue]
    split
    · simp [Text.literalTail_append]
    · split
      · exact spanParentheses_append 0 false (c :: s)
      · exact spanWord_append extent (c :: s)

theorem length_testValue_le (extent : Extent) (s : List Char) :
    (testValue extent s).2.length ≤ s.length := by
  have h := congrArg List.length (testValue_append extent s)
  simp at h
  omega

/-- The rest of a template and where it starts. -/
structure Cursor where
  rest : List Char
  position : Position
deriving DecidableEq, Repr

/-- A token and where it starts and ends. -/
structure Located where
  token : Token
  start : Position
  stop : Position
deriving DecidableEq, Repr

namespace Cursor

def ofText (s : String) : Cursor := ⟨s.toList, .start⟩

/-- The cursor with less to read: `taken` has been read and `rest` is left. -/
def advance (c : Cursor) (taken rest : List Char) : Cursor :=
  ⟨rest, c.position.after taken⟩

/-- Reads the body of a comment and its closing mark, behind the opening mark. -/
def comment? (s : List Char) : Option (List Char × List Char) :=
  Text.cutAt? commentClosing s

/-- Reads a token. A comment without an end is a fault. -/
def next (c : Cursor) : Except ErrorKind (Token × Cursor) :=
  match Text.dropStart? commentOpening c.rest with
  | some s =>
    match comment? s with
    | some (body, rest) =>
      .ok (.comment (String.ofList body), c.advance (commentText body) rest)
    | none => .error (.unterminatedComment c.position.line c.position.column)
  | none =>
    if c.rest = [] then .ok (.stop, c)
    else
      let (text, rest) := spanText .code c.rest
      .ok (.text (String.ofList text), c.advance text rest)

def testValue (c : Cursor) (extent : Extent) : List Char × Cursor :=
  let (value, rest) := Template.testValue extent c.rest
  (value, c.advance value rest)

/-- A token that is not the end leaves less to read. -/
theorem length_rest_next_lt {c c' : Cursor} {t : Token} (h : c.next = .ok (t, c'))
    (ht : t ≠ .stop) : c'.rest.length < c.rest.length := by
  rw [next] at h
  split at h
  next s hs =>
    split at h
    next body rest hb =>
      have h₁ := congrArg List.length (Text.append_of_dropStart?_eq_some hs)
      have h₂ := congrArg List.length (Text.append_of_cutAt?_eq_some hb)
      cases h
      simp [advance, commentOpening, commentClosing] at h₁ h₂ ⊢
      omega
    next => cases h
  next hs =>
    split at h
    next => cases h; exact absurd rfl ht
    next hr =>
      cases h
      have h₁ := congrArg List.length (spanText_append .code c.rest)
      have h₂ : (spanText .code c.rest).1 ≠ [] := by
        cases hc : c.rest with
        | nil => exact absurd hc hr
        | cons a s =>
          have : startsWith commentOpening (a :: s) = false := by simp [startsWith, ← hc, hs]
          grind [spanText]
      have h₃ := List.length_pos_iff.2 h₂
      simp [advance] at h₁ ⊢
      omega

theorem length_rest_testValue_le (c : Cursor) (extent : Extent) :
    (c.testValue extent).2.rest.length ≤ c.rest.length :=
  length_testValue_le extent c.rest

/-- Reads all tokens up to the end, or up to a fault, where the cursor stays. -/
def all (c : Cursor) : Except ErrorKind (List Located) × Cursor :=
  match h : c.next with
  | .error kind => (.error kind, c)
  | .ok (token, c') =>
    let located := ⟨token, c.position, c'.position⟩
    if ht : token = .stop then (.ok [located], c')
    else
      have := length_rest_next_lt h ht
      let (tokens, last) := c'.all
      (tokens.map (located :: ·), last)
termination_by c.rest.length

end Cursor

end SqlTemplate.Template
