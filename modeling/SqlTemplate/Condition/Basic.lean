import SqlTemplate.Calendar.Basic
import SqlTemplate.Number.Decimal
import SqlTemplate.Template.Path

/-!
# Conditions

A condition is a conjunction or a disjunction of clauses, never a mixture. A clause
compares two terms or stands for the truth of one, which may be negated. A term is a
literal or a path. There are no parentheses around clauses: what needs them belongs into
a boolean property of a parameter.
-/

namespace SqlTemplate

/-- What two terms are compared by. -/
inductive Operator where
  | eq
  | ne
  | ge
  | le
  | gt
  | lt
deriving DecidableEq, Repr

/-- What joins the clauses of a condition. -/
inductive Connective where
  | and
  | or
deriving DecidableEq, Repr

/-- A side of a comparison, or a clause of its own. -/
inductive Term where
  | null
  | bool (b : Bool)
  | string (s : String)
  | date (t : Calendar.DateTime)
  | number (d : Number.Decimal)
  | path (p : Path)
deriving DecidableEq, Repr

/-- What a clause says. -/
inductive ClauseKind where
  | comparison (left : Term) (operator : Operator) (right : Term)
  /-- The truth of a term, or its falsehood if `negated` holds. -/
  | standalone (negated : Bool) (term : Term)
deriving DecidableEq, Repr

/-- A clause with its text. -/
structure Clause where
  source : String
  kind : ClauseKind
deriving DecidableEq, Repr

/-- A condition with its text. -/
structure Condition where
  expression : String
  connective : Connective
  clauses : List Clause
deriving DecidableEq, Repr

namespace Operator

def symbol : Operator → String
  | .eq => "=="
  | .ne => "!="
  | .ge => ">="
  | .le => "<="
  | .gt => ">"
  | .lt => "<"

/-- Whether the operator holds between two things that compare in the given way. -/
def accepts (operator : Operator) (ordering : Ordering) : Bool :=
  match operator with
  | .eq => ordering.isEq
  | .ne => ordering.isNe
  | .ge => ordering.isGE
  | .le => ordering.isLE
  | .gt => ordering.isGT
  | .lt => ordering.isLT

/-- The operator at the start of a text and the text behind it. Of two operators that fit
the longer is taken. -/
def ofStart? : List Char → Option (Operator × List Char)
  | '=' :: '=' :: s => some (.eq, s)
  | '!' :: '=' :: s => some (.ne, s)
  | '>' :: '=' :: s => some (.ge, s)
  | '<' :: '=' :: s => some (.le, s)
  | '>' :: s => some (.gt, s)
  | '<' :: s => some (.lt, s)
  | _ => none

end Operator

namespace Connective

/-- The character that is written twice between two clauses. -/
def mark : Connective → Char
  | .and => '&'
  | .or => '|'

/-- The truth of a clause that settles the whole condition. -/
def deciding : Connective → Bool
  | .and => false
  | .or => true

end Connective

namespace Term

def path? : Term → Option Path
  | .path p => some p
  | _ => none

end Term

namespace Clause

def terms (c : Clause) : List Term :=
  match c.kind with
  | .comparison left _ right => [left, right]
  | .standalone _ term => [term]

def paths (c : Clause) : List Path :=
  c.terms.filterMap Term.path?

end Clause

namespace Condition

def paths (c : Condition) : List Path :=
  c.clauses.flatMap Clause.paths

/-- Whether a path of the condition starts at a loop element. -/
def usesLoop (c : Condition) : Bool :=
  c.paths.any Path.usesLoop

/-- The arguments that paths of the condition start at, as often as they occur. -/
def argumentNames (c : Condition) : List String :=
  c.paths.filterMap Path.argument?

end Condition

end SqlTemplate
