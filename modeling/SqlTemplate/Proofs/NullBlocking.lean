import Mathlib
import SqlTemplate.Proofs.Origins
import SqlTemplate.Proofs.Simulation

/-!
# Nulls that are blocked

A configuration may make a null for a variable an error. That is all it does: with it an
evaluation is the one without it, unless it has come to a null and fails for that reason
(`Template.evaluateWithin_blockingNulls`). And it leaves no gap. Whatever variable a value is
bound by, in whatever loops and embedded texts, it is not null (`Scene.Adds.ne_null`).

Conditions look at nulls in either case; a null is blocked where a variable gives it only.
-/

namespace SqlTemplate

open Template (Node Variable readNodes embeddedArguments embedding evaluateWithin)

/-- Errors are the same, but nulls that are blocked are excused. -/
def ErrorRelation.unlessNullBlocked : ErrorRelation :=
  .unless (· = .nullBlocked)

/-- The configuration with nulls blocked or not. -/
def Config.blockingNulls (config : Config) (block : Bool) : Config :=
  { config with blockNull := block }

namespace Environment

/-- The environment with nulls blocked or not. -/
def blockingNulls (env : Environment) (block : Bool) : Environment :=
  { env with config := env.config.blockingNulls block }

/-- What is looked up is the same with nulls and without them, unless it is a null. -/
theorem follows_blockingNulls (env : Environment) :
    (env.blockingNulls true).Follows .unlessNullBlocked .univ (env.blockingNulls false) where
  likeEscape := rfl
  adjustConnector := rfl
  error _ _ := .inl rfl
  path _ _ _ _ := .refl _
  resolve v loops _ := by
    have hpath : ResultsMatch .unlessNullBlocked
        (v.path.resolve v.expression (env.blockingNulls true) loops)
        (v.path.resolve v.expression (env.blockingNulls false) loops) := .refl _
    refine hpath.bind fun r => ?_
    have hallowed (w : Value) :
        ¬ (w.isNull && (env.blockingNulls false).config.blockNull) = true := by
      simp [blockingNulls, Config.blockingNulls]
    dsimp only
    rw [if_neg (hallowed _)]
    split
    next =>
      have hblocked : (v.fail (env.blockingNulls true) .nullBlocked).kind = .nullBlocked := rfl
      exact .excused hblocked _
    next => exact .refl _

end Environment

namespace Template

/-- Embedded texts are the same with nulls and without them, unless they come to a null. -/
theorem embedding_blockingNulls (levels : Nat) (env : Environment) :
    EmbeddingsMatch .unlessNullBlocked (embedding levels (env.blockingNulls true))
      (embedding levels (env.blockingNulls false)) := by
  induction levels generalizing env with
  | zero =>
      intro loops v r text
      exact .refl _
  | succ levels ih =>
      intro loops v r text
      refine (ResultsMatch.refl (readNodes text (!loops.isEmpty))).bind fun ns => ?_
      have hnested := ih (env.nested (embeddedArguments v r) text)
      exact (runsMatch_evaluateWithin (Environment.follows_blockingNulls _) hnested loops true
        fun _ _ => trivial).toResult

/-- The same of all nodes. -/
theorem evaluateWithin_blockingNulls (levels : Nat) (env : Environment) (loops : List Loop)
    (enabled : Bool) (ns : List Node) :
    RunsMatch .unlessNullBlocked
      (evaluateWithin levels (env.blockingNulls true) loops enabled ns)
      (evaluateWithin levels (env.blockingNulls false) loops enabled ns) :=
  runsMatch_evaluateWithin env.follows_blockingNulls (embedding_blockingNulls levels env) loops
    enabled fun _ _ => trivial

namespace Variable

variable {v : Variable} {env : Environment} {loops : List Loop}

theorem isNull_eq_false_of_resolve {r : Resolved} (hblock : env.config.blockNull = true)
    (h : v.resolve env loops = .ok r) : r.target.isNull = false := by
  obtain ⟨s, -, h⟩ := Except.bind_eq_ok_iff.1 h
  dsimp only at h
  split at h
  next => cases h
  next hnull =>
    cases h
    simpa [hblock] using hnull

end Variable

end Template

/-- Where nulls are blocked none is bound. -/
theorem Scene.Adds.ne_null {scene : Scene} {w : Value} {type : ValueType}
    (hblock : scene.environment.config.blockNull = true)
    (h : scene.Adds (.placeholder w type)) : w ≠ .null := by
  rw [Ne, ← Value.isNull_iff, Bool.not_eq_true]
  cases h with
  | bound hmem h hp =>
      obtain ⟨r, hr, ⟨-, present, hpresent, hw, -⟩ | ⟨-, rfl, -⟩⟩ :=
        Template.Variable.placeholder_cases h hp
      · exact Template.Variable.isNull_eq_false_of_mem_elements hpresent hw
      · exact Template.Variable.isNull_eq_false_of_resolve hblock hr

namespace Template

/-- With nulls blocked a template gives the same as without, or the error of a null that is
blocked. And if it gives anything, no value that it binds is null. -/
theorem evaluate_blockingNulls (t : Template) (arguments : Arguments) (config : Config) :
    (t.evaluate arguments (config.blockingNulls true) =
        t.evaluate arguments (config.blockingNulls false) ∨
      ∃ e, t.evaluate arguments (config.blockingNulls true) = .error e ∧
        e.kind = .nullBlocked) ∧
    ∀ q, t.evaluate arguments (config.blockingNulls true) = .ok q →
      ∀ w ∈ q.values, w ≠ .null := by
  constructor
  · let env : Environment := ⟨arguments, config, t.source, 0⟩
    have hsame := evaluateWithin_blockingNulls env.remainingDepth env [] true t.nodes
    exact hsame.toResult.eq_or_excused
  · intro q hq w hw
    obtain ⟨type, scene, hreaches, hadds⟩ := exists_adds_of_mem_values hq hw
    have hconfig : scene.environment.config = config.blockingNulls true :=
      hreaches.partOf.config.symm
    have hblock : scene.environment.config.blockNull = true := by
      rw [hconfig]
      rfl
    exact hadds.ne_null hblock

end Template

end SqlTemplate
