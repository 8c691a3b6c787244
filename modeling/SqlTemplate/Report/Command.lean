import SqlTemplate.Config.Document
import SqlTemplate.Arguments.Document
import SqlTemplate.Evaluation.Node
import SqlTemplate.Json.Writing
import SqlTemplate.Report.Grid

/-!
# Commands

What a command prints, given the files it reads. `render` evaluates a template and
reports the SQL with its values, as a table or as a document; `check` reads a template and
reports the arguments it can look at. A failure is reported with the causes behind it.

The configuration is read first, then the arguments, then the template; the first fault
ends the command.
-/

namespace SqlTemplate.Report

/-- The forms of a report. -/
inductive Format where
  | table
  | json
deriving DecidableEq, Repr

/-- What a command leaves behind. -/
structure Result where
  exitCode : UInt32
  stdout : String
  stderr : String

/-- A file: the name it is asked for by, and what is in it if it can be read. -/
structure File where
  name : String
  content : Option String

/-- A failure and the causes behind it, the nearest first. -/
structure Failure where
  message : String
  causes : List String

namespace Failure

/-- The failure with something said in front of it. -/
def within (message : String) (f : Failure) : Failure :=
  ⟨message, f.message :: f.causes⟩

/-- The failure of a file that is not there. -/
def missingFile : Failure := ⟨"No such file or directory (os error 2)", []⟩

/-- A text with its lines behind the given starts, of which the second is for all lines
but the first. -/
def indented (first others s : String) : String :=
  first ++ ("\n" ++ others).intercalate (s.splitOn "\n")

/-- The causes with their numbers, unless there is but one. -/
def shownCauses : List String → List String
  | [cause] => [indented "    " "    " cause]
  | causes => causes.zipIdx.map fun (cause, i) =>
      indented ("    " ++ toString i ++ ": ") "       " cause

def text (f : Failure) : String :=
  let causes :=
    if f.causes.isEmpty then ""
    else "\n\nCaused by:\n" ++ "\n".intercalate (shownCauses f.causes)
  "Error: " ++ f.message ++ causes ++ "\n"

def ofTemplate (e : TemplateError) : Failure := ⟨e.message, []⟩

def ofConfig (e : ConfigError) : Failure :=
  ⟨e.message?.getD "Invalid configuration file", []⟩

def ofArguments (e : ArgumentsError) : Failure := ⟨e.message, e.cause?.toList⟩

end Failure

/-- The result of a command that prints or fails. -/
def Result.ofExcept : Except Failure String → Result
  | .ok s => ⟨0, s, ""⟩
  | .error f => ⟨1, "", f.text⟩

/-- The content of a file, if it can be read. -/
def File.read (f : File) (message : String) : Except Failure String :=
  match f.content with
  | some s => .ok s
  | none => .error (Failure.missingFile.within (message ++ f.name))

/-- The value of a placeholder as a table shows it. -/
def shownValue (v : Value) : String :=
  match v.asString? with
  | some s => Text.sqlQuote s
  | none => v.text

/-- A row for each value, numbered from one. -/
def valueRows (q : BoundSql) : List (List String) :=
  ((q.values.zip q.types).zipIdx 1).map fun ((v, type), i) =>
    [toString i, shownValue v, type.name]

/-- The report as a table. With `display` the values are written into the SQL. -/
def table (q : BoundSql) (display : Bool) : String :=
  let sql := (if display then q.display else q.sql) ++ "\n"
  if q.values.isEmpty then sql
  else sql ++ grid ["#", "Value", "Type"] (valueRows q) ++ "\n"

/-- The report as a document. With `display` it also has the SQL with its values. -/
def document (q : BoundSql) (display : Bool) : Json :=
  Json.ofMembers
    ([("sql", .string q.sql), ("values", .array (q.values.map Value.toJson)),
        ("types", .array (q.types.map fun t => .string t.name))]
      ++ if display then [("display_sql", .string q.display)] else [])

/-- The report in the given form. -/
def report (q : BoundSql) (format : Format) (display : Bool) : String :=
  match format with
  | .table => table q display
  | .json => (document q display).pretty ++ "\n"

/-- The configuration in a file, or the default one. -/
def readConfig : Option File → Except Failure Config
  | none => .ok {}
  | some f => do
    let explain := Failure.within ("failed to load configuration " ++ f.name)
    match f.content with
    | none =>
      .error (explain (Failure.missingFile.within ("IO error: " ++ Failure.missingFile.message)))
    | some s => (Config.ofDocument s).mapError (explain ∘ Failure.ofConfig)

/-- The arguments in a file, or none. -/
def readArguments : Option File → Except Failure Arguments
  | none => .ok .empty
  | some f => do
    let s ← f.read "failed to read parameters from "
    (Arguments.ofDocument s).mapError (Failure.within ("in " ++ f.name) ∘ Failure.ofArguments)

def readTemplate (f : File) : Except Failure Template := do
  let s ← f.read "failed to read template "
  (Template.ofText s).mapError Failure.ofTemplate

/-- Evaluates a template and reports the SQL with its values. -/
def render (template : File) (arguments config : Option File) (format : Format)
    (display : Bool) : Result :=
  .ofExcept do
    let config ← readConfig config
    let arguments ← readArguments arguments
    let t ← readTemplate template
    let q ← (t.evaluate arguments config).mapError Failure.ofTemplate
    return report q format display

/-- Reads a template and reports the arguments it can look at. -/
def check (template : File) : Result :=
  .ofExcept do
    let t ← readTemplate template
    let size := "ok: " ++ toString t.nodes.length ++ " nodes, "
    if t.arguments.isEmpty then return size ++ "no arguments\n"
    else return size ++ "arguments: " ++ ", ".intercalate t.arguments ++ "\n"

end SqlTemplate.Report
