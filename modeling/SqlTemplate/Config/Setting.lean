import SqlTemplate.Text.Digits
import SqlTemplate.Text.Split

/-!
# Settings in a document

A configuration document holds one setting a line: a key, an equals sign and a value, in
the notation of TOML. Values are booleans, integers of 64 bits and strings; the tables,
arrays, dates and floating numbers of that notation have no place here, so a text with
one of them is no document. There may be blank lines, and comments behind a number sign.

A string stands between single or triple marks. Between apostrophes it is taken as it is
written, between quotation marks a backslash starts an escape. Between triple marks it
may go over several lines; the line feed behind the opening mark does not count.
-/

namespace SqlTemplate.Config

inductive Field where
  | bool (b : Bool)
  | integer (n : Int)
  | string (s : List Char)
deriving DecidableEq, Repr

/-- A setting: its key and its value. -/
abbrev Setting := List Char × Field

/-- Whether the character separates words in a line. -/
def isGap (c : Char) : Bool :=
  c == ' ' || c == '\t'

def skipGap (s : List Char) : List Char :=
  s.dropWhile isGap

/-- Whether the character may stand in a comment or a string of one line. -/
def isPrintable (c : Char) : Bool :=
  c == '\t' || (c.toNat ≥ 0x20 && c.toNat != 0x7f)

/-- The text behind the line end at its start. -/
def lineEnd? : List Char → Option (List Char)
  | '\n' :: s => some s
  | '\r' :: '\n' :: s => some s
  | _ => none

/-- The text behind the rest of a line: blanks, a comment, and the line end unless the
document ends. -/
def restOfLine? (s : List Char) : Option (List Char) :=
  let rest :=
    match skipGap s with
    | '#' :: comment => comment.dropWhile isPrintable
    | r => r
  if rest = [] then some [] else lineEnd? rest

/-! ### Integers -/

/-- Cuts digits off the text. Between two digits there may be an underscore. -/
def takeDigits (isDigit : Char → Bool) : List Char → List Char × List Char
  | '_' :: c :: s =>
    if isDigit c then
      let (digits, rest) := takeDigits isDigit s
      (c :: digits, rest)
    else ([], '_' :: c :: s)
  | c :: s =>
    if isDigit c then
      let (digits, rest) := takeDigits isDigit s
      (c :: digits, rest)
    else ([], c :: s)
  | [] => ([], [])

/-- Whether the character is a digit to a base up to sixteen. -/
def isDigitOf (base : Nat) (c : Char) : Bool :=
  (Text.hexValue? c).any (· < base)

/-- The number that digits denote to a base. -/
def numberOf (base : Nat) (digits : List Char) : Nat :=
  digits.foldl (fun n c => n * base + (Text.hexValue? c).getD 0) 0

/-- Reads digits to a base; the first one is a digit. -/
def readDigits (base : Nat) (s : List Char) : Option (List Char × List Char) :=
  if s.head? = some '_' then none
  else
    match takeDigits (isDigitOf base) s with
    | ([], _) => none
    | (digits, rest) => some (digits, rest)

/-- Reads an integer without a sign to the base that its mark names. -/
def readMarked (s : List Char) : Option (Int × List Char) :=
  let base? :=
    match s with
    | '0' :: 'x' :: r => some (16, r)
    | '0' :: 'o' :: r => some (8, r)
    | '0' :: 'b' :: r => some (2, r)
    | _ => none
  base?.bind fun (base, r) =>
    (readDigits base r).map fun (digits, rest) => ((numberOf base digits : Int), rest)

/-- Reads an integer to the base ten. It has no needless zero in front. -/
def readDecimal (s : List Char) : Option (Int × List Char) :=
  let (negative, r) :=
    match s with
    | '-' :: r => (true, r)
    | '+' :: r => (false, r)
    | r => (false, r)
  match readDigits 10 r with
  | none => none
  | some (digits, rest) =>
    if digits.length > 1 ∧ digits.head? = some '0' then none
    else
      let n : Int := numberOf 10 digits
      some (if negative then -n else n, rest)

/-- Reads an integer of 64 bits. -/
def readInteger (s : List Char) : Option (Int × List Char) :=
  ((readMarked s).or (readDecimal s)).filter fun (n, _) => -Int.pow 2 63 ≤ n && n < Int.pow 2 63

/-! ### Strings -/

/-- The character that a backslash and the given character stand for. -/
def escaped? (c : Char) : Option Char :=
  match c with
  | 'b' => some '\x08'
  | 't' => some '\t'
  | 'n' => some '\n'
  | 'f' => some '\x0c'
  | 'r' => some '\r'
  | '"' => some '"'
  | '\\' => some '\\'
  | _ => none

def charOf? (code : Nat) : Option Char :=
  if code.isValidChar then some (Char.ofNat code) else none

/-- Where a string is being read. -/
inductive StringState where
  | plain
  | escape
  /-- Before `left` digits of a code, `code` being read. -/
  | code (left code : Nat)
  /-- Behind a backslash at the end of a line, before what is left out; `ended` says
  whether the line end has been read. -/
  | lineBreak (ended : Bool)

/-- Reads a string of one line up to the apostrophe that closes it. -/
def literalTail : List Char → Option (List Char × List Char)
  | [] => none
  | c :: s =>
    if c = '\'' then some ([], s)
    else if isPrintable c then Text.consCut c (literalTail s)
    else none

/-- Cuts the text behind the marks that close a string over several lines: two marks more
than needed belong to the string. -/
def closing? (mark : Char) (s : List Char) : Option (List Char × List Char) :=
  match s with
  | a :: b :: c :: r =>
    if a = mark ∧ b = mark ∧ c = mark then
      match r with
      | d :: e :: t =>
        if d = mark ∧ e = mark then some ([mark, mark], t)
        else if d = mark then some ([mark], e :: t)
        else some ([], r)
      | [d] => if d = mark then some ([mark], []) else some ([], r)
      | [] => some ([], [])
    else none
  | _ => none

/-- Reads a string over several lines up to the apostrophes that close it. -/
def longLiteralTail : List Char → Option (List Char × List Char)
  | [] => none
  | '\r' :: '\n' :: s => Text.consCut '\n' (longLiteralTail s)
  | c :: s =>
    match closing? '\'' (c :: s) with
    | some read => some read
    | none => if isPrintable c ∨ c = '\n' then Text.consCut c (longLiteralTail s) else none

/-- Reads a string with escapes up to the marks that close it; `long` says whether it may
go over several lines. -/
def basicTail (long : Bool) (state : StringState) : List Char → Option (List Char × List Char)
  | [] => none
  | c :: s =>
    match state with
    | .escape =>
      if c = 'u' then basicTail long (.code 4 0) s
      else if c = 'U' then basicTail long (.code 8 0) s
      else
        match escaped? c with
        | some d => Text.consCut d (basicTail long .plain s)
        | none =>
          if !long then none
          else if isGap c then basicTail long (.lineBreak false) s
          else if c = '\n' ∨ (c = '\r' ∧ s.head? = some '\n') then
            basicTail long (.lineBreak (c = '\n')) s
          else none
    | .code left code =>
      match Text.hexValue? c with
      | none => none
      | some digit =>
        if 1 < left then basicTail long (.code (left - 1) (code * 16 + digit)) s
        else
          match charOf? (code * 16 + digit) with
          | some d => Text.consCut d (basicTail long .plain s)
          | none => none
    | .lineBreak ended =>
      if isGap c then basicTail long (.lineBreak ended) s
      else if c = '\n' then basicTail long (.lineBreak true) s
      else if c = '\r' ∧ s.head? = some '\n' then basicTail long (.lineBreak ended) s
      else if !ended then none
      else plainStep c s
    | .plain => plainStep c s
where
  /-- Reads on at a character that is not part of an escape. -/
  plainStep (c : Char) (s : List Char) : Option (List Char × List Char) :=
    if c = '\\' then basicTail long .escape s
    else if c = '"' then
      if long then
        match closing? '"' (c :: s) with
        | some read => some read
        | none => Text.consCut c (basicTail long .plain s)
      else some ([], s)
    else if isPrintable c then Text.consCut c (basicTail long .plain s)
    else if long ∧ c = '\n' then Text.consCut c (basicTail long .plain s)
    else if long ∧ c = '\r' ∧ s.head? = some '\n' then basicTail long .plain s
    else none

/-- Reads a string of one line. -/
def readShortString : List Char → Option (List Char × List Char)
  | '"' :: s => basicTail false .plain s
  | '\'' :: s => literalTail s
  | _ => none

def readString : List Char → Option (List Char × List Char)
  | '"' :: '"' :: '"' :: s => basicTail true .plain ((lineEnd? s).getD s)
  | '\'' :: '\'' :: '\'' :: s => longLiteralTail ((lineEnd? s).getD s)
  | s => readShortString s

/-! ### Settings -/

def words : List (String × Bool) :=
  [("true", true), ("false", false)]

def readField (s : List Char) : Option (Field × List Char) :=
  match words.findSome? fun (w, b) => (Text.dropStart? w.toList s).map ((b, ·)) with
  | some (b, rest) => some (.bool b, rest)
  | none =>
    match readString s with
    | some (cs, rest) => some (.string cs, rest)
    | none => (readInteger s).map fun (n, rest) => (.integer n, rest)

/-- Whether a key without quotes may contain the character. -/
def isKeyChar (c : Char) : Bool :=
  c.isAlphanum || c == '_' || c == '-'

def readKey (s : List Char) : Option (List Char × List Char) :=
  match readShortString s with
  | some read => some read
  | none =>
    match s.span isKeyChar with
    | ([], _) => none
    | (key, rest) => some (key, rest)

def readSetting (s : List Char) : Option (Setting × List Char) := do
  let (key, s) ← readKey s
  match skipGap s with
  | '=' :: s =>
    let (field, s) ← readField (skipGap s)
    return ((key, field), s)
  | _ => none

/-- Reads the settings of a document of at most `limit` lines. -/
def settingsWithin? : Nat → List Char → Option (List Setting)
  | 0, _ => none
  | limit + 1, s =>
    if s = [] then some []
    else
      match restOfLine? s with
      | some rest => settingsWithin? limit rest
      | none => do
        let (setting, rest) ← readSetting (skipGap s)
        let settings ← settingsWithin? limit (← restOfLine? rest)
        return setting :: settings

/-- The mark that may stand before a document. -/
abbrev byteOrderMark : Char := '\uFEFF'

/-- Reads the settings of a document. Every line but the last takes a character. -/
def settings? (s : List Char) : Option (List Setting) :=
  let text :=
    match s with
    | c :: r => if c = byteOrderMark then r else c :: r
    | [] => []
  settingsWithin? (text.length + 1) text

end SqlTemplate.Config
