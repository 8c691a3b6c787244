import Mathlib
import SqlTemplate.Proofs.Execution

/-!
# What an execution leaves as it is

An execution adds to its context and changes nothing that was there. What it adds, the error that
ends it and whether the context counts afterwards are the same whatever was added before
(`executes_appends`): of the context only the environment and whether it counts are looked at.
-/

namespace SqlTemplate

open Template (Node traceNodes)

/-- What was added before stays as it was, and what comes behind it does not depend on it: SQL with
as many values as types, an error or none, and whether the context counts, which it does if it
did before. -/
theorem executes_appends (env : Environment) (loops : List Loop) (enabled : Bool)
    (ns : List Node) :
    ∃ added enabled' failure,
      added.types.length = added.values.length ∧ enabled ≤ enabled' ∧
        ∀ before : BoundSql,
          Context.evaluate ⟨env, before, enabled⟩ loops ns =
              (⟨env, before ++ added, enabled'⟩, failure) ∧
            ∀ c' failure',
              (∃ log, Executes ⟨env, before, enabled⟩ loops (.nodes ns) c' failure' log) ↔
                c' = ⟨env, before ++ added, enabled'⟩ ∧ failure' = failure := by
  let t : Trace := traceNodes env loops enabled ns
  have hrun : Template.evaluateNodes env loops enabled ns = t.run enabled :=
    (Template.run_traceNodes env loops enabled ns).symm
  refine ⟨.ofPieces t.pieces, enabled || t.counts, t.failure,
    BoundSql.length_types_ofPieces t.pieces, Bool.left_le_or enabled t.counts, ?_⟩
  intro before
  have hevaluate : Context.evaluate ⟨env, before, enabled⟩ loops ns =
      (⟨env, before ++ .ofPieces t.pieces, enabled || t.counts⟩, t.failure) := by
    rw [Context.evaluate, Context.goOn, hrun]
    rfl
  refine ⟨hevaluate, ?_⟩
  intro c' failure'
  rw [executes_iff, hevaluate, Prod.mk.injEq, eq_comm (b := c'), eq_comm (b := failure')]

end SqlTemplate
