import SqlTemplate.Evaluation.Node

/-!
# Contexts

A context collects what is added during an evaluation, by nodes or by hand. A child of a
context collects for a block, a nested one for an embedded text; what they have collected
is merged into the context they come from, or dropped.
-/

namespace SqlTemplate

/-- An environment with what has been added in it. -/
structure Context where
  environment : Environment
  added : BoundSql
  /-- Whether something has made the block count. -/
  enabled : Bool

namespace Context

def root (arguments : Arguments) (config : Config) (template : String) : Context :=
  ⟨⟨arguments, config, template, 0⟩, .empty, true⟩

def child (c : Context) : Context :=
  ⟨c.environment, .empty, false⟩

def nested (c : Context) (arguments : Arguments) (template : String) : Context :=
  ⟨c.environment.nested arguments template, .empty, true⟩

def add (c : Context) (sql : BoundSql) : Context :=
  { c with added := c.added ++ sql }

/-- Says whether the block counts. -/
def setEnabled (c : Context) (enabled : Bool) : Context :=
  { c with enabled := enabled }

/-- Adds what another context has collected. -/
def merge (c inner : Context) : Context :=
  c.add inner.added

/-- Goes on with a run. -/
def goOn (c : Context) (run : Bool → Run) : Context × Option TemplateError :=
  let r := run c.enabled
  ((c.add r.added).setEnabled r.enabled, r.failure)

/-- Evaluates nodes. What was added before an error stays. -/
def evaluate (c : Context) (loops : List Loop) (ns : List Template.Node) :
    Context × Option TemplateError :=
  c.goOn fun enabled => Template.evaluateNodes c.environment loops enabled ns

def bind (c : Context) (loops : List Loop) (v : Template.Variable) :
    Context × Option TemplateError :=
  c.evaluate loops [.bind v]

def embed (c : Context) (loops : List Loop) (v : Template.Variable)
    (mode : Template.EmbeddedMode) : Context × Option TemplateError :=
  c.evaluate loops [.embedded v mode]

end Context

end SqlTemplate
