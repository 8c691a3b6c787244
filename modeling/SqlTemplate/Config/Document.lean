import SqlTemplate.Config.Basic
import SqlTemplate.Config.Setting

/-!
# Configuration documents

A document sets some of the choices and leaves the others as they are by default. A key
that is not known, a key given twice and a value of the wrong kind make a text no
document; what the document says is then validated.
-/

namespace SqlTemplate.Config

/-- Makes the choice that a setting asks for. -/
def choose? (c : Config) (setting : Setting) : Option Config :=
  match String.ofList setting.1, setting.2 with
  | "block_null_parameter", .bool b => some { c with blockNull := b }
  | "max_dynamic_depth", .integer n =>
    if 0 ≤ n then some { c with maxDynamicDepth := n.toNat } else none
  | "adjust_connector", .bool b => some { c with adjustConnector := b }
  | "like_escape", .string [ch] => some { c with likeEscape := ch }
  | _, _ => none

/-- The configuration that settings make, if their keys differ. -/
def ofSettings? (settings : List Setting) : Option Config :=
  if (settings.map Prod.fst).Nodup then settings.foldlM choose? {} else none

/-- Reads a configuration document and validates it. -/
def ofDocument (s : String) : Except ConfigError Config :=
  match (settings? s.toList).bind ofSettings? with
  | some c => c.validate
  | none => .error .document

end SqlTemplate.Config
