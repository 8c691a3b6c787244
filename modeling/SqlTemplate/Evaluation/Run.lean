import SqlTemplate.Evaluation.BoundSql
import SqlTemplate.Error

/-!
# Runs

A run is what the evaluation of some nodes gives: the SQL it has added, whether its block
counts afterwards, and the error that ended it if one did. What was added before an error
stays. Runs are put one behind the other (`Run.all`); a later one sees of an earlier one
only whether the block counts.
-/

namespace SqlTemplate

/-- What an evaluation has done. -/
structure Run where
  /-- The SQL that was added. -/
  added : BoundSql
  /-- Whether something has made the block count. -/
  enabled : Bool
  /-- The error at which the evaluation ended early. -/
  failure : Option TemplateError

namespace Run

def idle (enabled : Bool) : Run := ⟨.empty, enabled, none⟩

def ofSql (sql : String) (enabled : Bool) : Run := ⟨.ofSql sql, enabled, none⟩

/-- An error and nothing else. -/
def failed (e : TemplateError) (enabled : Bool) : Run := ⟨.empty, enabled, some e⟩

/-- What makes the block count is added, or it fails. -/
def ofResult (r : Except TemplateError BoundSql) (enabled : Bool) : Run :=
  match r with
  | .ok sql => ⟨sql, true, none⟩
  | .error e => failed e enabled

/-- The run makes the block count, unless it fails. -/
def enable (r : Run) : Run :=
  match r.failure with
  | none => { r with enabled := true }
  | some _ => r

/-- The run of a block of its own: it is added as a whole if something in it counts. -/
def asBlock (r : Run) (enabled : Bool) : Run :=
  match r.failure with
  | some e => failed e enabled
  | none => if r.enabled then ⟨r.added, true, none⟩ else idle enabled

/-- The run that goes on with another one. -/
def andThen (r : Run) (next : Bool → Run) : Run :=
  match r.failure with
  | some _ => r
  | none =>
    let s := next r.enabled
    { s with added := r.added ++ s.added }

/-- Runs one behind the other. -/
def all : List (Bool → Run) → Bool → Run
  | [], enabled => idle enabled
  | f :: steps, enabled => (f enabled).andThen (all steps)

/-- What was added by a run that has not failed. -/
def toResult (r : Run) : Except TemplateError BoundSql :=
  match r.failure with
  | none => .ok r.added
  | some e => .error e

@[simp] theorem idle_andThen (enabled : Bool) (next : Bool → Run) :
    (idle enabled).andThen next = next enabled := by
  simp [andThen, idle]

@[simp] theorem andThen_idle (r : Run) : r.andThen idle = r := by
  cases h : r.failure with
  | some e => simp [andThen, h]
  | none =>
    obtain ⟨added, enabled, failure⟩ := r
    cases h
    simp [andThen, idle]

theorem andThen_assoc (r : Run) (f g : Bool → Run) :
    (r.andThen f).andThen g = r.andThen fun enabled => (f enabled).andThen g := by
  cases hr : r.failure with
  | some e => simp [andThen, hr]
  | none =>
    cases hf : (f r.enabled).failure with
    | some e => simp [andThen, hr, hf]
    | none => simp [andThen, hr, hf, BoundSql.append_assoc]

/-- Running two sequences is running one behind the other. -/
theorem all_append (fs gs : List (Bool → Run)) (enabled : Bool) :
    all (fs ++ gs) enabled = (all fs enabled).andThen (all gs) := by
  induction fs generalizing enabled with
  | nil => simp [all]
  | cons f fs ih =>
    have : all (fs ++ gs) = fun enabled => (all fs enabled).andThen (all gs) := funext ih
    simp [all, this, andThen_assoc]

end Run

end SqlTemplate
