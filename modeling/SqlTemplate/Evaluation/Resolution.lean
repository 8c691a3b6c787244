import SqlTemplate.Evaluation.Environment
import SqlTemplate.Evaluation.Loop
import SqlTemplate.Template.Path
import SqlTemplate.Text.Digits

/-!
# Following paths

A step of a path leads from a value to another one, or it is missing for a reason
(`Segment.follow`). A path starts at an argument or at a loop element and goes through
its steps (`Path.resolve`). With the value it gives the type under which the value is
bound. An argument has its declared type, if there is one, and a property that is null
has the type that its object declares; everything else has the type of the value.
-/

namespace SqlTemplate

/-- Where a step leads. -/
inductive Reached where
  /-- To a property of an object. -/
  | property (v : Value)
  /-- To an entry of a map, or to null where there is none. -/
  | entry (v : Value)
  /-- To an element of a list. -/
  | element (v : Value)
  /-- To what a method gives. -/
  | result (v : Value)

/-- Why a step leads nowhere. -/
inductive Missing where
  | nullTarget
  | noSuchProperty
  | noSuchMethod
  | indexOutOfRange (index size : Nat)
  | nonNumericIndex
  | notIndexable
deriving DecidableEq, Repr

def Reached.value : Reached → Value
  | .property v | .entry v | .element v | .result v => v

namespace Value

/-- The greatest place of a list element that can be asked for. -/
abbrev maxIndex : Nat := Nat.pow 2 64 - 1

def ofSize (n : Nat) : Value :=
  if n < Nat.pow 2 31 then .int32 (Int32.ofNat n)
  else .int64 (Int64.ofNat (min n (Nat.pow 2 63 - 1)))

/-- How many items, entries or characters the value has. -/
def size? : Value → Option Nat
  | .list items => some items.length
  | .map entries => some entries.length
  | .string s => some s.length
  | _ => none

def isString (v : Value) : Bool :=
  v.asString?.isSome

/-- What a method of the value gives. Lists, maps and strings have a size, strings call it
their length too; objects have methods of their own. -/
def call? (v : Value) (method : String) : Option Value :=
  match v with
  | .object o => Entries.get? method o.methods
  | _ =>
    v.size?.bind fun n =>
      if method = "size" ∨ (method = "length" ∧ v.isString) then some (ofSize n)
      else if method = "isEmpty" then some (.bool (n == 0))
      else none

/-- The declared type of a property. -/
def declaredType? (v : Value) (property : String) : Option ValueType :=
  match v with
  | .object o => Entries.get? property o.declared
  | _ => none

end Value

namespace Segment

/-- Reads the place of a list element: digits, with a plus sign or without. -/
def indexOfText? (raw : String) : Option Nat :=
  let digits :=
    match raw.toList with
    | '+' :: s => s
    | s => s
  if digits ≠ [] ∧ digits.all Char.isDigit ∧ Text.digitsValue digits ≤ Value.maxIndex then
    some (Text.digitsValue digits)
  else none

/-- Where the step leads from the value. -/
def follow (v : Value) (step : Segment) : Except Missing Reached :=
  match v, step with
  | .null, _ => .error .nullTarget
  | .object o, .property name =>
    match Entries.get? name o.properties with
    | some w => .ok (.property w)
    | none => .error .noSuchProperty
  | .map entries, .property name => .ok (.entry ((Entries.get? name entries).getD .null))
  | _, .property _ => .error .noSuchProperty
  | .list items, .index raw =>
    match indexOfText? raw with
    | none => .error .nonNumericIndex
    | some place =>
      match items[place]? with
      | some w => .ok (.element w)
      | none => .error (.indexOutOfRange place items.length)
  | _, .index _ => .error .notIndexable
  | v, .method name =>
    match v.call? name with
    | some w => .ok (.result w)
    | none => .error .noSuchMethod

/-- The type declared for what the step leads to, in case it is null. -/
def declaredType? (v : Value) : Segment → Option ValueType
  | .property name => v.declaredType? name
  | _ => none

end Segment

/-- The fault of a step that leads nowhere, behind the given text of a path. -/
def Missing.kind (m : Missing) (walked : String) (v : Value) (step : Segment) : ErrorKind :=
  match m, step with
  | .nullTarget, _ => .nullIntermediate walked step.text
  | .indexOutOfRange index size, _ => .indexOutOfRange index size
  | .nonNumericIndex, .index raw => .nonNumericIndex raw
  | .notIndexable, _ => .notIndexable v.type.name
  | .noSuchMethod, .method name => .methodNotFound v.type.name name
  | _, step => .propertyNotFound v.type.name step.text

/-- The way along a path so far. -/
structure Walk where
  value : Value
  type : ValueType
  /-- The text of the path so far. -/
  walked : String

namespace Walk

def step (w : Walk) (s : Segment) : Except ErrorKind Walk :=
  match s.follow w.value with
  | .error m => .error (m.kind w.walked w.value s)
  | .ok reached =>
    let v := reached.value
    let type := if v.isNull then (s.declaredType? w.value).getD v.type else v.type
    .ok ⟨v, type, w.walked ++ "." ++ s.text⟩

end Walk

/-- The values at both ends of a path. -/
structure Resolved where
  /-- Where the path starts. -/
  first : Value
  firstType : ValueType
  /-- Where it leads. -/
  target : Value
  targetType : ValueType
  /-- The LIKE option that has made the target a pattern. -/
  like : Option Like

namespace Resolved

/-- Makes a pattern of the target, if it is a string and there is an option. -/
def withLike (r : Resolved) (option : Option Like) (escape : Char) : Resolved :=
  match option, r.target with
  | some like, .string s =>
    { r with target := .string (like.apply escape s), like := some like }
  | _, _ => r

/-- The SQL to stand behind the target: the escape clause of a pattern. -/
def rear? (r : Resolved) (escape : Char) : Option String :=
  r.like.map fun _ => Like.escapeClause escape

end Resolved

namespace PathRoot

/-- The value at the root, and its type. -/
def resolve (root : PathRoot) (env : Environment) (loops : List Loop) :
    Except ErrorKind (Value × ValueType) :=
  match root with
  | .argument name =>
    match env.arguments.values.get? name with
    | some v => .ok (v, env.arguments.typeOf name v)
    | none => .error (.argumentNotFound name)
  | .loop =>
    match loops.head? with
    | some l => .ok (l.current, l.current.type)
    | none => .error .loopVariableOutsideLoop

end PathRoot

namespace Path

/-- Follows the path to its end. -/
def follow (p : Path) (env : Environment) (loops : List Loop) : Except ErrorKind Resolved := do
  let (first, firstType) ← p.root.resolve env loops
  let w ← p.segments.foldlM Walk.step ⟨first, firstType, p.root.text⟩
  return ⟨first, firstType, w.value, w.type, none⟩

/-- Follows the path; `expression` is what errors name. -/
def resolve (p : Path) (expression : String) (env : Environment) (loops : List Loop) :
    Except TemplateError Resolved :=
  (p.follow env loops).mapError (env.error · expression)

end Path

end SqlTemplate
