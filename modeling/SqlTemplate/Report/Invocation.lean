import SqlTemplate.Report.Command

/-!
# Command lines

What the words of a command line ask for: a command with the names of its files and the
form of its report. Options may stand anywhere, with their value as the next word or
behind an equals sign.
-/

namespace SqlTemplate.Report

/-- A command line. -/
inductive Invocation where
  | render (template : String) (arguments config : Option String) (format : Format)
      (display : Bool)
  | check (template : String)
deriving DecidableEq, Repr

def usage : String :=
  "Usage: render TEMPLATE [--params FILE] [--config FILE] [--format table|json] [--display]\n"
    ++ "       check TEMPLATE\n"

/-- The options of a command line read so far, and the words that are none, the last one
first. -/
structure Words where
  words : List String := []
  arguments : Option String := none
  config : Option String := none
  format : Format := .table
  display : Bool := false

namespace Words

/-- Takes up an option with a value. -/
def option? (w : Words) (name value : String) : Option Words :=
  match name, value with
  | "--params", file | "-p", file => some { w with arguments := some file }
  | "--config", file | "-c", file => some { w with config := some file }
  | "--format", "table" => some { w with format := .table }
  | "--format", "json" => some { w with format := .json }
  | _, _ => none

/-- Takes up an option without a value. What is logged does not depend on any. -/
def flag? (w : Words) (name : String) : Option Words :=
  match name with
  | "--display" => some { w with display := true }
  | "--verbose" | "-v" | "--log-json" => some w
  | _ => none

/-- Reads the words of a command line. -/
def read? (w : Words) : List String → Option Words
  | [] => some w
  | word :: rest =>
    match w.flag? word with
    | some w => read? w rest
    | none =>
      if !word.startsWith "-" then read? { w with words := word :: w.words } rest
      else
        match Text.cutAtChar? '=' word.toList with
        | some (name, value) =>
          match w.option? (String.ofList name) (String.ofList value) with
          | some w => read? w rest
          | none => none
        | none =>
          match rest with
          | value :: rest =>
            match w.option? word value with
            | some w => read? w rest
            | none => none
          | [] => none

end Words

/-- What a command line asks for. -/
def Invocation.ofWords? (line : List String) : Option Invocation := do
  let w ← Words.read? {} line
  match w.words.reverse with
  | ["render", template] => some (.render template w.arguments w.config w.format w.display)
  | ["check", template] => some (.check template)
  | _ => none

end SqlTemplate.Report
