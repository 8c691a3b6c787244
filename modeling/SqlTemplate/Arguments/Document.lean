import SqlTemplate.Arguments.Basic
import SqlTemplate.Json.Reading
import SqlTemplate.Value.Json

/-!
# Argument documents

Arguments are given as a JSON object with a member for each. The member `$types` is no
argument: it is an object that names the declared types of arguments. Members are taken
in the order of their names, and the first fault in this order is reported.
-/

namespace SqlTemplate

/-- What is wrong with an argument document. -/
inductive ArgumentsError where
  | notJson
  | notObject
  | typesNotObject
  | typeNotString (argument : String)
  | unknownType (argument typeName : String)
deriving DecidableEq, Repr

namespace Arguments

/-- The member that names declared types. -/
def typesKey : String := "$types"

end Arguments

/-- What is wrong with the name of a type. -/
def ValueType.unknownMessage (name : String) : String :=
  "Unknown value type: " ++ name

namespace ArgumentsError

def message : ArgumentsError → String
  | .notJson => "parameters are not valid JSON"
  | .notObject => "parameters must be a JSON object keyed by argument name"
  | .typesNotObject => "'" ++ Arguments.typesKey ++ "' must map argument names to type names"
  | .typeNotString argument => "declared type of '" ++ argument ++ "' must be a string"
  | .unknownType argument _ => "declared type of '" ++ argument ++ "'"

/-- What lies behind it, where there is more to say. -/
def cause? : ArgumentsError → Option String
  | .unknownType _ typeName => some (ValueType.unknownMessage typeName)
  | _ => none

end ArgumentsError

namespace Arguments

/-- Takes up the declared type of an argument. -/
def declareMember (a : Arguments) : String × Json → Except ArgumentsError Arguments
  | (name, .string typeName) =>
    match ValueType.ofText? typeName with
    | some type => .ok (a.declare name type)
    | none => .error (.unknownType name typeName)
  | (name, _) => .error (.typeNotString name)

def putMember (a : Arguments) : String × Json → Except ArgumentsError Arguments
  | (name, j) =>
    if name = typesKey then
      match j with
      | .object types => types.foldlM declareMember a
      | _ => .error .typesNotObject
    else .ok (a.put name (.ofJson j))

def ofDocument (s : String) : Except ArgumentsError Arguments :=
  match Json.ofText? s with
  | none => .error .notJson
  | some (.object members) => members.foldlM putMember empty
  | some _ => .error .notObject

end Arguments

end SqlTemplate
