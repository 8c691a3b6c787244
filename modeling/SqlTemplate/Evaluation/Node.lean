import SqlTemplate.Evaluation.Run
import SqlTemplate.Evaluation.Truth
import SqlTemplate.Evaluation.Variable
import SqlTemplate.Template.Reading

/-!
# Evaluation of nodes

Nodes are evaluated in an environment, in the loops around them, and in a block that
counts or does not count so far. A variable and a taken part of a condition make the
block count. A connector is dropped in a block that does not count. A block in a block
starts as one that does not count, and is left out if it stays one.

Embedded text with directives is read and evaluated like a template of its own, with the
argument at the start of the variable's path as its only one (`embedText`). It may embed
text in turn, up to the depth that the configuration allows; the number of levels left
bounds the recursion (`evaluateWithin`).
-/

namespace SqlTemplate.Template

namespace Node

mutual

def evaluate (embedding : Variable.Embedding) (env : Environment) (loops : List Loop)
    (enabled : Bool) : Node → Run
  | .text s => .ofSql s enabled
  | .connector word rest =>
    .ofSql (if !enabled && env.config.adjustConnector then rest else word ++ rest) enabled
  | .bind v => .ofResult (v.bound env loops) enabled
  | .embedded v mode => .ofResult (v.embedded embedding mode env loops) enabled
  | .ifBlock condition body otherwise =>
    match condition.evaluate env loops with
    | .error e => .failed e enabled
    | .ok true => (evaluateAll embedding env loops enabled body).enable
    | .ok false => evaluateOption embedding env loops enabled otherwise
  | .forBlock expression path options body =>
    match path.resolve expression env loops with
    | .error e => .failed e enabled
    | .ok r =>
      match r.target with
      | .list elements =>
        Run.all
          ((Loop.turns ⟨expression, elements, 0, options.like⟩).map fun turn enabled =>
            evaluateAll embedding env (turn :: loops) enabled body)
          enabled
      | w => .failed (env.error (.forSourceNotList w.typeLabel) expression) enabled
  | .block body => (evaluateAll embedding env loops false body).asBlock enabled
  | .first body =>
    if loops.head?.any Loop.isFirst then evaluateAll embedding env loops enabled body
    else .idle enabled
  | .last body =>
    if loops.head?.any Loop.isLast then evaluateAll embedding env loops enabled body
    else .idle enabled
  | .separator s =>
    if loops.head?.any (!·.isFirst) then .ofSql s enabled else .idle enabled

def evaluateAll (embedding : Variable.Embedding) (env : Environment) (loops : List Loop)
    (enabled : Bool) : List Node → Run
  | [] => .idle enabled
  | n :: ns =>
    (evaluate embedding env loops enabled n).andThen fun enabled =>
      evaluateAll embedding env loops enabled ns

def evaluateOption (embedding : Variable.Embedding) (env : Environment) (loops : List Loop)
    (enabled : Bool) : Option (List Node) → Run
  | none => .idle enabled
  | some ns => (evaluateAll embedding env loops enabled ns).enable

end

end Node

/-- The arguments of a text embedded by a variable: the one its path starts at. -/
def embeddedArguments (v : Variable) (r : Resolved) : Arguments :=
  match v.path.argument? with
  | some name => .single name r.first r.firstType
  | none => .empty

/-- Evaluates embedded text, given what evaluates its nodes. -/
def embedText (evaluateNodes : Environment → List Loop → Bool → List Node → Run)
    (env : Environment) : Variable.Embedding := fun loops v r text => do
  let nodes ← readNodes text !loops.isEmpty
  (evaluateNodes (env.nested (embeddedArguments v r) text) loops true nodes).toResult

/-- Refuses embedded text with directives. -/
def embedNothing (env : Environment) : Variable.Embedding := fun _ v _ _ =>
  .error (v.fail env (.dynamicDepthExceeded env.config.maxDynamicDepth))

/-- Evaluates nodes with the given number of levels left for embedding. -/
def evaluateWithin : Nat → Environment → List Loop → Bool → List Node → Run
  | 0, env, loops, enabled, ns => Node.evaluateAll (embedNothing env) env loops enabled ns
  | levels + 1, env, loops, enabled, ns =>
    Node.evaluateAll (embedText (evaluateWithin levels) env) env loops enabled ns

def evaluateNodes (env : Environment) (loops : List Loop) (enabled : Bool)
    (ns : List Node) : Run :=
  evaluateWithin env.remainingDepth env loops enabled ns

/-- Evaluates the template. -/
def evaluate (t : Template) (arguments : Arguments) (config : Config) :
    Except TemplateError BoundSql :=
  (evaluateNodes ⟨arguments, config, t.source, 0⟩ [] true t.nodes).toResult

/-- Reads a template and evaluates it. -/
def render (source : String) (arguments : Arguments) (config : Config) :
    Except TemplateError BoundSql := do
  let t ← ofText source
  t.evaluate arguments config

end SqlTemplate.Template
