import SqlTemplate.Evaluation.Resolution
import SqlTemplate.Value.Comparison

/-!
# Truth of conditions

Clauses are decided from the left. The first one that fails, or whose truth settles the
connective, decides the condition; the others are not looked at. Errors name the whole
condition and the clause that failed.
-/

namespace SqlTemplate

namespace Term

/-- The value of the term; `expression` is what errors name. -/
def evaluate (t : Term) (expression : String) (env : Environment) (loops : List Loop) :
    Except TemplateError Value :=
  match t with
  | .null => .ok .null
  | .bool b => .ok (.bool b)
  | .string s => .ok (.string s)
  | .date t => .ok (.dateTime t)
  | .number d => .ok (.decimal d)
  | .path p => (p.resolve expression env loops).map Resolved.target

end Term

namespace ClauseKind

/-- Whether what the clause says is true; `expression` is what errors name. -/
def decide (k : ClauseKind) (expression : String) (env : Environment) (loops : List Loop) :
    Except TemplateError Bool := do
  match k with
  | .comparison left operator right =>
    let a ← left.evaluate expression env loops
    let b ← right.evaluate expression env loops
    (Value.compare operator a b).mapError (env.error · expression)
  | .standalone negated term =>
    match ← term.evaluate expression env loops with
    | .bool b => return b != negated
    | v => .error (env.error (.notBoolean v.typeLabel) expression)

end ClauseKind

namespace Clause

def evaluate (c : Clause) (expression : String) (env : Environment) (loops : List Loop) :
    Except TemplateError Bool :=
  (c.kind.decide expression env loops).mapError (·.withClause c.source)

end Clause

namespace Condition

/-- Whether clauses joined by the connective are true. -/
def evaluateClauses (connective : Connective) (expression : String) (env : Environment)
    (loops : List Loop) : List Clause → Except TemplateError Bool
  | [] => .ok !connective.deciding
  | c :: cs => do
    if (← c.evaluate expression env loops) = connective.deciding then
      return connective.deciding
    else evaluateClauses connective expression env loops cs

def evaluate (c : Condition) (env : Environment) (loops : List Loop) :
    Except TemplateError Bool :=
  evaluateClauses c.connective c.expression env loops c.clauses

end Condition

end SqlTemplate
