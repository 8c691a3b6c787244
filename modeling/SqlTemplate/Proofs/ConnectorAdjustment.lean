import Mathlib
import SqlTemplate.Proofs.Origins

/-!
# Connectors that are adjusted

A configuration may have connectors dropped where nothing stands before them to be joined. That
is all that becomes of the setting. Whatever else an evaluation does, which parts it takes and
which blocks it leaves out, what it embeds and with which error it ends, is the same with it and
without it, because nothing depends on the text that has been added (`Trace.Thinner`). So the SQL
with adjustment is the SQL without, less some of the connectors that stand in the template or in
embedded texts (`Template.evaluate_adjustingConnectors`).
-/

namespace SqlTemplate

open Template (Node Variable readNodes embeddedArguments traceNodes embeddingPieces)

namespace Piece

/-- The first pieces are the second ones less some of the connectors. -/
inductive Thinner : List Piece → List Piece → Prop where
  | nil : Thinner [] []
  | keep (p : Piece) {ps qs : List Piece} (h : Thinner ps qs) : Thinner (p :: ps) (p :: qs)
  | drop (word : String) {ps qs : List Piece} (h : Thinner ps qs) :
      Thinner ps (.connector word :: qs)

namespace Thinner

variable {ps ps' qs qs' : List Piece}

theorem refl : (ps : List Piece) → Thinner ps ps
  | [] => .nil
  | p :: ps => .keep p (refl ps)

theorem append (h : Thinner ps qs) (h' : Thinner ps' qs') : Thinner (ps ++ ps') (qs ++ qs') := by
  induction h with
  | nil => exact h'
  | keep p _ ih => exact .keep p ih
  | drop word _ ih => exact .drop word ih

/-- No placeholder is dropped. -/
theorem bound_eq (h : Thinner ps qs) :
    (BoundSql.ofPieces ps).values = (BoundSql.ofPieces qs).values ∧
      (BoundSql.ofPieces ps).types = (BoundSql.ofPieces qs).types := by
  induction h with
  | nil => exact ⟨rfl, rfl⟩
  | keep p _ ih =>
      obtain ⟨hvalues, htypes⟩ := ih
      rw [BoundSql.ofPieces_cons, BoundSql.ofPieces_cons, BoundSql.append_values,
        BoundSql.append_values, BoundSql.append_types, BoundSql.append_types, hvalues, htypes]
      exact ⟨rfl, rfl⟩
  | drop word _ ih => exact ih

end Thinner

/-- Both results are the same error, or the first one is the second one less some of the
connectors. -/
inductive ResultsThinner :
    Except TemplateError (List Piece) → Except TemplateError (List Piece) → Prop where
  | error (e : TemplateError) : ResultsThinner (.error e) (.error e)
  | ok {ps qs : List Piece} (h : Thinner ps qs) : ResultsThinner (.ok ps) (.ok qs)

namespace ResultsThinner

theorem refl (r : Except TemplateError (List Piece)) : ResultsThinner r r := by
  cases r with
  | error e => exact .error e
  | ok ps => exact .ok (.refl ps)

theorem bind {α : Type} (r : Except TemplateError α)
    {f f' : α → Except TemplateError (List Piece)} (hf : ∀ a, ResultsThinner (f a) (f' a)) :
    ResultsThinner (r >>= f) (r >>= f') := by
  cases r with
  | error e => exact .error e
  | ok a => exact hf a

end ResultsThinner

end Piece

namespace Trace

/-- Both traces end in the same way and count alike, and the first one adds what the second one
adds less some of the connectors. -/
structure Thinner (t u : Trace) : Prop where
  pieces : Piece.Thinner t.pieces u.pieces
  counts : t.counts = u.counts
  failure : t.failure = u.failure

namespace Thinner

variable {t u : Trace}

theorem refl (t : Trace) : Thinner t t := ⟨.refl t.pieces, rfl, rfl⟩

/-- A connector may be dropped in the first trace; it does not count in either case. -/
theorem connector (word : String) (kept : Bool) :
    Thinner (ofAct (.connector word kept)) (ofAct (.connector word true)) := by
  cases kept with
  | true => exact .refl _
  | false => exact ⟨.drop word .nil, rfl, rfl⟩

theorem ofResult {r s : Except TemplateError (List Piece)} (h : Piece.ResultsThinner r s) :
    Thinner (ofResult r) (ofResult s) := by
  cases h with
  | error e => exact .refl (failed e)
  | ok h =>
      refine ⟨?_, rfl, rfl⟩
      rw [Trace.ofResult, Trace.ofResult, pieces_ofAct, pieces_ofAct]
      exact h

theorem toResult (h : Thinner t u) : Piece.ResultsThinner t.toResult u.toResult := by
  rw [Trace.toResult, Trace.toResult, h.failure]
  cases u.failure with
  | none => exact .ok h.pieces
  | some e => exact .error e

theorem asPart (h : Thinner t u) : Thinner t.asPart u.asPart where
  pieces := by
    rw [pieces_asPart, pieces_asPart]
    exact h.pieces
  counts := by rw [counts_asPart, counts_asPart, h.counts, h.failure]
  failure := by rw [failure_asPart, failure_asPart, h.failure]

/-- Both blocks are left out or none is. -/
theorem asBlock (h : Thinner t u) : Thinner t.asBlock u.asBlock := by
  rw [Trace.asBlock, Trace.asBlock, h.failure, h.counts]
  split
  next e _ => exact .refl (failed e)
  next =>
    split
    next =>
      refine ⟨?_, rfl, rfl⟩
      rw [pieces_ofAct, pieces_ofAct]
      exact h.pieces
    next => exact .refl idle

/-- What comes next begins in a block that counts in both traces or in none. -/
theorem andThen (h : Thinner t u) {enabled : Bool} {next next' : Bool → Trace}
    (hnext : ∀ b, Thinner (next b) (next' b)) :
    Thinner (t.andThen enabled next) (u.andThen enabled next') := by
  rw [Trace.andThen, Trace.andThen, h.failure, h.counts]
  split
  next => exact h
  next =>
    obtain ⟨hpieces, hcounts, hfailure⟩ := hnext (enabled || u.counts)
    refine ⟨?_, ?_, hfailure⟩
    · simp only [Trace.pieces, List.flatMap_append]
      exact h.pieces.append hpieces
    · simp only [Trace.counts, List.any_append]
      exact congrArg₂ or h.counts hcounts

theorem all {ι : Type} (xs : List ι) {f f' : ι → Bool → Trace}
    (hf : ∀ x b, Thinner (f x b) (f' x b)) (enabled : Bool) :
    Thinner (all (xs.map f) enabled) (all (xs.map f') enabled) := by
  induction xs generalizing enabled with
  | nil => exact .refl idle
  | cons x xs ih => exact (hf x enabled).andThen ih

end Thinner

end Trace

/-- The configuration with connectors adjusted or not. -/
def Config.adjustingConnectors (config : Config) (adjust : Bool) : Config :=
  { config with adjustConnector := adjust }

/-- The environment with connectors adjusted or not. -/
def Environment.adjustingConnectors (env : Environment) (adjust : Bool) : Environment :=
  { env with config := env.config.adjustingConnectors adjust }

/-- Conditions do not depend on the adjustment. -/
theorem Condition.evaluate_eq_of_adjustingConnectors (c : Condition) (env : Environment)
    (loops : List Loop) (adjust : Bool) :
    c.evaluate (env.adjustingConnectors adjust) loops = c.evaluate env loops := by
  rw [evaluate, evaluate]
  induction c.clauses with
  | nil => rfl
  | cons clause clauses ih =>
      rw [evaluateClauses, evaluateClauses, ih]
      rfl

/-- What becomes of an embedded text is the same less some of the connectors. -/
def EmbeddingsThinner (pieces pieces' : Variable.PieceEmbedding) : Prop :=
  ∀ loops v r text, Piece.ResultsThinner (pieces loops v r text) (pieces' loops v r text)

namespace Template.Variable

theorem thinner_embeddedPieces {pieces pieces' : PieceEmbedding}
    (h : EmbeddingsThinner pieces pieces') (v : Variable) (mode : EmbeddedMode)
    (env : Environment) (loops : List Loop) :
    Piece.ResultsThinner
      (v.embeddedPieces pieces mode (env.adjustingConnectors true) loops)
      (v.embeddedPieces pieces' mode (env.adjustingConnectors false) loops) := by
  refine .bind (v.resolve (env.adjustingConnectors false) loops) fun r => ?_
  split
  next => exact .refl _
  next =>
    refine .bind ((scalar r.target).mapError (v.fail (env.adjustingConnectors false)))
      fun w => ?_
    split
    next text _ => exact h loops v r text
    next => exact .refl _

end Template.Variable

namespace Template.Node

variable {pieces pieces' : Variable.PieceEmbedding}

mutual

/-- With adjustment a node does what it does without, less some of the connectors. -/
theorem thinner_trace (h : EmbeddingsThinner pieces pieces') (env : Environment)
    (loops : List Loop) (enabled : Bool) :
    (n : Node) → Trace.Thinner (n.trace pieces (env.adjustingConnectors true) loops enabled)
      (n.trace pieces' (env.adjustingConnectors false) loops enabled)
  | .text s => .refl _
  | .connector word rest => by
      have hkept : (enabled || !(env.adjustingConnectors false).config.adjustConnector) = true :=
        Bool.or_true enabled
      rw [trace, trace, hkept]
      exact (Trace.Thinner.connector word _).andThen fun _ => .refl _
  | .bind v => .refl _
  | .embedded v mode => .ofResult (Variable.thinner_embeddedPieces h v mode env loops)
  | .ifBlock condition body otherwise => by
      rw [trace, trace, condition.evaluate_eq_of_adjustingConnectors,
        condition.evaluate_eq_of_adjustingConnectors]
      split
      next e _ => exact .refl (.failed e)
      next => exact (thinner_traceAll h env loops enabled body).asPart
      next => exact thinner_traceOption h env loops enabled otherwise
  | .forBlock expression path options body => by
      have hr : path.resolve expression (env.adjustingConnectors true) loops =
          path.resolve expression (env.adjustingConnectors false) loops := rfl
      rw [trace, trace, hr]
      split
      next e _ => exact .refl (.failed e)
      next r _ =>
        split
        next elements _ =>
          refine .all _ (fun turn enabled => ?_) enabled
          exact thinner_traceAll h env (turn :: loops) enabled body
        next => exact .refl _
  | .block body => (thinner_traceAll h env loops false body).asBlock
  | .first body => by
      rw [trace, trace]
      split
      next => exact thinner_traceAll h env loops enabled body
      next => exact .refl .idle
  | .last body => by
      rw [trace, trace]
      split
      next => exact thinner_traceAll h env loops enabled body
      next => exact .refl .idle
  | .separator s => .refl _

/-- The same of nodes that stand one behind the other. -/
theorem thinner_traceAll (h : EmbeddingsThinner pieces pieces') (env : Environment)
    (loops : List Loop) (enabled : Bool) :
    (ns : List Node) →
      Trace.Thinner (traceAll pieces (env.adjustingConnectors true) loops enabled ns)
        (traceAll pieces' (env.adjustingConnectors false) loops enabled ns)
  | [] => .refl .idle
  | n :: ns =>
      (thinner_trace h env loops enabled n).andThen fun enabled =>
        thinner_traceAll h env loops enabled ns

/-- The same of the second part of a condition. -/
theorem thinner_traceOption (h : EmbeddingsThinner pieces pieces') (env : Environment)
    (loops : List Loop) (enabled : Bool) :
    (otherwise : Option (List Node)) →
      Trace.Thinner (traceOption pieces (env.adjustingConnectors true) loops enabled otherwise)
        (traceOption pieces' (env.adjustingConnectors false) loops enabled otherwise)
  | none => .refl .idle
  | some ns => (thinner_traceAll h env loops enabled ns).asPart

end

end Template.Node

/-- A connector is added by a node that has it. -/
theorem Scene.Adds.exists_connector {scene : Scene} {word : String}
    (h : scene.Adds (.connector word)) : ∃ rest, Node.connector word rest ∈ scene.nodes := by
  cases h with
  | connector hmem => exact ⟨_, hmem⟩
  | bound _ h hp => cases Template.Variable.literal?_eq_none_of_mem_boundPieces h hp

namespace Template

/-- At every level embedded texts are the same less some of the connectors. -/
theorem thinner_embeddingPieces (levels : Nat) (env : Environment) :
    EmbeddingsThinner (embeddingPieces levels (env.adjustingConnectors true))
      (embeddingPieces levels (env.adjustingConnectors false)) := by
  induction levels generalizing env with
  | zero =>
      intro loops v r text
      exact .refl _
  | succ levels ih =>
      intro loops v r text
      refine .bind (readNodes text (!loops.isEmpty)) fun ns => ?_
      let inner := env.nested (embeddedArguments v r) text
      exact (Node.thinner_traceAll (ih inner) inner loops true ns).toResult

/-- What nodes do with adjustment is what they do without, less some of the connectors. -/
theorem thinner_traceNodes (env : Environment) (loops : List Loop) (enabled : Bool)
    (ns : List Node) :
    Trace.Thinner (traceNodes (env.adjustingConnectors true) loops enabled ns)
      (traceNodes (env.adjustingConnectors false) loops enabled ns) :=
  Node.thinner_traceAll (thinner_embeddingPieces env.remainingDepth env) env loops enabled ns

/-- With connectors adjusted a template fails with the error with which it fails without, or both
times it gives SQL. Then the same values are bound under the same types, and the SQL is put
together from the same pieces, less some that are connectors of nodes. -/
theorem evaluate_adjustingConnectors (t : Template) (arguments : Arguments) (config : Config) :
    (∃ e, t.evaluate arguments (config.adjustingConnectors true) = .error e ∧
      t.evaluate arguments (config.adjustingConnectors false) = .error e) ∨
    ∃ ps qs, t.pieces arguments (config.adjustingConnectors false) = .ok qs ∧
      Piece.Thinner ps qs ∧
      (∀ word, .connector word ∈ qs →
        ∃ scene rest, (t.scene arguments (config.adjustingConnectors false)).Reaches scene ∧
          Node.connector word rest ∈ scene.nodes) ∧
      t.evaluate arguments (config.adjustingConnectors true) = .ok (.ofPieces ps) ∧
      t.evaluate arguments (config.adjustingConnectors false) = .ok (.ofPieces qs) ∧
      (BoundSql.ofPieces ps).values = (BoundSql.ofPieces qs).values ∧
      (BoundSql.ofPieces ps).types = (BoundSql.ofPieces qs).types := by
  let env : Environment := ⟨arguments, config, t.source, 0⟩
  have hthinner : Piece.ResultsThinner (t.pieces arguments (config.adjustingConnectors true))
      (t.pieces arguments (config.adjustingConnectors false)) :=
    (thinner_traceNodes env [] true t.nodes).toResult
  have hnodes : ∀ qs, t.pieces arguments (config.adjustingConnectors false) = .ok qs →
      ∀ word, .connector word ∈ qs →
        ∃ scene rest, (t.scene arguments (config.adjustingConnectors false)).Reaches scene ∧
          Node.connector word rest ∈ scene.nodes := by
    intro qs hqs word hword
    obtain ⟨-, rfl⟩ := Trace.toResult_eq_ok_iff.1 hqs
    obtain ⟨scene, hreaches, hadds⟩ := exists_adds_of_mem_traceNodes hword
    obtain ⟨rest, hmem⟩ := hadds.exists_connector
    exact ⟨scene, rest, hreaches, hmem⟩
  rw [← map_pieces, ← map_pieces]
  generalize t.pieces arguments (config.adjustingConnectors true) = r at hthinner ⊢
  generalize t.pieces arguments (config.adjustingConnectors false) = s at hthinner hnodes ⊢
  cases hthinner with
  | error e => exact .inl ⟨e, rfl, rfl⟩
  | ok h => exact .inr ⟨_, _, rfl, h, hnodes _ rfl, rfl, rfl, h.bound_eq⟩

/-- At the start of a block a connector is what the adjustment drops. -/
example :
    let t : Template := ⟨"", [.block [.connector " and " "", .bind ⟨"p", ⟨.argument "p", []⟩,
      .none, "1"⟩]]⟩
    let arguments : Arguments := ⟨[("p", .null)], []⟩
    (t.evaluate arguments {}).map BoundSql.sql = .ok "?" ∧
      (t.evaluate arguments { adjustConnector := false }).map BoundSql.sql = .ok " and ?" := by
  constructor <;> cbv

end Template

end SqlTemplate
