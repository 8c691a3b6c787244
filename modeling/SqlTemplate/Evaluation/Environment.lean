import SqlTemplate.Arguments.Basic
import SqlTemplate.Config.Basic
import SqlTemplate.Error

/-!
# Environments

What stays the same while the nodes of one text are evaluated: the arguments and their
declared types, the configuration, and the text with the depth at which it is embedded.
Every error of an evaluation is made from the environment (`Environment.error`), so it
names the text and shows the arguments.
-/

namespace SqlTemplate

/-- What the nodes of a text are evaluated in. -/
structure Environment where
  arguments : Arguments
  config : Config
  /-- The text whose nodes are evaluated. -/
  template : String
  /-- How many texts the text is embedded in. -/
  depth : Nat

namespace Environment

def error (env : Environment) (kind : ErrorKind) (expression : String) : TemplateError :=
  ⟨kind, expression, none, env.template, env.arguments.text⟩

/-- The environment of an embedded text. -/
def nested (env : Environment) (arguments : Arguments) (template : String) : Environment :=
  ⟨arguments, env.config, template, env.depth + 1⟩

/-- How many more texts may be embedded in one another. -/
def remainingDepth (env : Environment) : Nat :=
  env.config.maxDynamicDepth - env.depth

end Environment

end SqlTemplate
