import SqlTemplate.Evaluation.Node
import SqlTemplate.Proofs.Trace
import SqlTemplate.Proofs.VariablePieces

/-!
# Traces of nodes

The evaluation of nodes, instrumented: `Node.trace` does what `Node.evaluate` does and
writes down its history instead of its SQL. `Node.run_trace` says that the history is one of
that evaluation: its run is the run of the nodes. The same holds of embedded text, level by
level (`isOf_embeddingPieces`), of whole lists of nodes (`run_traceNodes`) and of templates
(`map_pieces`).

The history is a possible one (`Node.possible_trace`), whatever the nodes are.
-/

namespace SqlTemplate.Template

namespace Node

mutual

/-- The trace of a node. -/
def trace (embedding : Variable.PieceEmbedding) (env : Environment) (loops : List Loop)
    (enabled : Bool) : Node → Trace
  | .text s => .ofAct (.text s)
  | .connector word rest =>
    (Trace.ofAct (.connector word (enabled || !env.config.adjustConnector))).andThen enabled
      fun _ => .ofAct (.text rest)
  | .bind v => .ofResult (v.boundPieces env loops)
  | .embedded v mode => .ofResult (v.embeddedPieces embedding mode env loops)
  | .ifBlock condition body otherwise =>
    match condition.evaluate env loops with
    | .error e => .failed e
    | .ok true => (traceAll embedding env loops enabled body).asPart
    | .ok false => traceOption embedding env loops enabled otherwise
  | .forBlock expression path options body =>
    match path.resolve expression env loops with
    | .error e => .failed e
    | .ok r =>
      match r.target with
      | .list elements =>
        Trace.all
          ((Loop.turns ⟨expression, elements, 0, options.like⟩).map fun turn enabled =>
            traceAll embedding env (turn :: loops) enabled body)
          enabled
      | w => .failed (env.error (.forSourceNotList w.typeLabel) expression)
  | .block body => (traceAll embedding env loops false body).asBlock
  | .first body =>
    if loops.head?.any Loop.isFirst then traceAll embedding env loops enabled body
    else .idle
  | .last body =>
    if loops.head?.any Loop.isLast then traceAll embedding env loops enabled body
    else .idle
  | .separator s =>
    if loops.head?.any (!·.isFirst) then .ofAct (.text s) else .idle

/-- The trace of nodes one after another. -/
def traceAll (embedding : Variable.PieceEmbedding) (env : Environment) (loops : List Loop)
    (enabled : Bool) : List Node → Trace
  | [] => .idle
  | n :: ns =>
    (trace embedding env loops enabled n).andThen enabled fun enabled =>
      traceAll embedding env loops enabled ns

/-- The trace of the second part of a condition, if there is one. -/
def traceOption (embedding : Variable.PieceEmbedding) (env : Environment)
    (loops : List Loop) (enabled : Bool) : Option (List Node) → Trace
  | none => .idle
  | some ns => (traceAll embedding env loops enabled ns).asPart

end

theorem ofSql_andThen_ofSql (s t : String) (enabled : Bool) :
    ((Run.ofSql s enabled).andThen fun b => .ofSql t b) = .ofSql (s ++ t) enabled := by
  simp [Run.andThen, Run.ofSql, BoundSql.ext_iff, BoundSql.ofSql]

mutual

/-- The trace of a node is the history of its run. -/
theorem run_trace {pieces : Variable.PieceEmbedding} {embedding : Variable.Embedding}
    (h : pieces.IsOf embedding) (env : Environment) (loops : List Loop) (enabled : Bool)
    (n : Node) :
    (trace pieces env loops enabled n).run enabled =
      evaluate embedding env loops enabled n := by
  match n with
  | .text s => exact Trace.run_text s enabled
  | .connector word rest =>
      rw [trace, evaluate, Trace.run_andThen, Trace.run_connector]
      simp only [Trace.run_text, ofSql_andThen_ofSql]
      cases enabled <;> cases env.config.adjustConnector <;> simp
  | .bind v =>
      rw [trace, evaluate, Trace.run_ofResult, Variable.map_boundPieces]
  | .embedded v mode =>
      rw [trace, evaluate, Trace.run_ofResult, Variable.map_embeddedPieces h]
  | .ifBlock condition body otherwise =>
      rw [trace, evaluate]
      cases condition.evaluate env loops with
      | error e => exact Trace.run_failed e enabled
      | ok taken =>
          cases taken with
          | true =>
              simp only [Trace.run_asPart]
              rw [run_traceAll h env loops enabled body]
          | false => exact run_traceOption h env loops enabled otherwise
  | .forBlock expression path options body =>
      have hbody : ∀ turn b, (traceAll pieces env (turn :: loops) b body).run b =
          evaluateAll embedding env (turn :: loops) b body :=
        fun turn b => run_traceAll h env (turn :: loops) b body
      rw [trace, evaluate]
      cases path.resolve expression env loops with
      | error e => exact Trace.run_failed e enabled
      | ok r =>
          dsimp only
          cases r.target with
          | list elements =>
              simp only [Trace.run_all, List.map_map, Function.comp_def, hbody]
          | _ => exact Trace.run_failed _ enabled
  | .block body =>
      rw [trace, evaluate, Trace.run_asBlock, run_traceAll h env loops false body]
  | .first body =>
      rw [trace, evaluate]
      split
      · exact run_traceAll h env loops enabled body
      · exact Trace.run_idle enabled
  | .last body =>
      rw [trace, evaluate]
      split
      · exact run_traceAll h env loops enabled body
      · exact Trace.run_idle enabled
  | .separator s =>
      rw [trace, evaluate]
      split
      · exact Trace.run_text s enabled
      · exact Trace.run_idle enabled

theorem run_traceAll {pieces : Variable.PieceEmbedding} {embedding : Variable.Embedding}
    (h : pieces.IsOf embedding) (env : Environment) (loops : List Loop) (enabled : Bool)
    (ns : List Node) :
    (traceAll pieces env loops enabled ns).run enabled =
      evaluateAll embedding env loops enabled ns := by
  match ns with
  | [] => exact Trace.run_idle enabled
  | n :: ns =>
      have hns : ∀ b, (traceAll pieces env loops b ns).run b =
          evaluateAll embedding env loops b ns :=
        fun b => run_traceAll h env loops b ns
      rw [traceAll, evaluateAll, Trace.run_andThen, run_trace h env loops enabled n]
      simp only [hns]

theorem run_traceOption {pieces : Variable.PieceEmbedding} {embedding : Variable.Embedding}
    (h : pieces.IsOf embedding) (env : Environment) (loops : List Loop) (enabled : Bool)
    (ns : Option (List Node)) :
    (traceOption pieces env loops enabled ns).run enabled =
      evaluateOption embedding env loops enabled ns := by
  match ns with
  | none => exact Trace.run_idle enabled
  | some ns =>
      rw [traceOption, evaluateOption, Trace.run_asPart,
        run_traceAll h env loops enabled ns]

end

mutual

/-- What a node does is possible. -/
theorem possible_trace {embedding : Variable.PieceEmbedding} {env : Environment}
    {Given : List Piece → Prop} (h : Variable.Gives embedding env Given)
    (loops : List Loop) (enabled : Bool) (n : Node) :
    Trace.Possible env.config.adjustConnector Given enabled
      (trace embedding env loops enabled n) := by
  match n with
  | .text s => exact .text enabled s
  | .connector word rest =>
      rw [trace]
      exact .andThen (.connector enabled word) (.text _ rest)
  | .bind v => exact .ofResult (h.bound v loops)
  | .embedded v mode => exact .ofResult (h.embedded v mode loops)
  | .ifBlock condition body otherwise =>
      rw [trace]
      cases condition.evaluate env loops with
      | error e => exact .failed enabled e
      | ok taken =>
          cases taken with
          | true => exact .part (possible_traceAll h loops enabled body)
          | false => exact possible_traceOption h loops enabled otherwise
  | .forBlock expression path options body =>
      have hbody : ∀ turn b, Trace.Possible env.config.adjustConnector Given b
          (traceAll embedding env (turn :: loops) b body) :=
        fun turn b => possible_traceAll h (turn :: loops) b body
      rw [trace]
      cases path.resolve expression env loops with
      | error e => exact .failed enabled e
      | ok r =>
          dsimp only
          cases r.target with
          | list elements =>
              apply Trace.Possible.all
              intro f hf b
              obtain ⟨turn, -, rfl⟩ := List.mem_map.1 hf
              exact hbody turn b
          | _ => exact .failed enabled _
  | .block body => exact .block enabled (possible_traceAll h loops false body)
  | .first body =>
      rw [trace]
      split
      · exact possible_traceAll h loops enabled body
      · exact .idle enabled
  | .last body =>
      rw [trace]
      split
      · exact possible_traceAll h loops enabled body
      · exact .idle enabled
  | .separator s =>
      rw [trace]
      split
      · exact .text enabled s
      · exact .idle enabled

theorem possible_traceAll {embedding : Variable.PieceEmbedding} {env : Environment}
    {Given : List Piece → Prop} (h : Variable.Gives embedding env Given)
    (loops : List Loop) (enabled : Bool) (ns : List Node) :
    Trace.Possible env.config.adjustConnector Given enabled
      (traceAll embedding env loops enabled ns) := by
  match ns with
  | [] => exact .idle enabled
  | n :: ns =>
      have hns : ∀ b, Trace.Possible env.config.adjustConnector Given b
          (traceAll embedding env loops b ns) :=
        fun b => possible_traceAll h loops b ns
      exact .andThen (possible_trace h loops enabled n) (hns _)

theorem possible_traceOption {embedding : Variable.PieceEmbedding} {env : Environment}
    {Given : List Piece → Prop} (h : Variable.Gives embedding env Given)
    (loops : List Loop) (enabled : Bool) (ns : Option (List Node)) :
    Trace.Possible env.config.adjustConnector Given enabled
      (traceOption embedding env loops enabled ns) := by
  match ns with
  | none => exact .idle enabled
  | some ns => exact .part (possible_traceAll h loops enabled ns)

end

end Node

/-- What becomes of embedded text, given what traces its nodes. -/
def embedTextPieces (traceNodes : Environment → List Loop → Bool → List Node → Trace)
    (env : Environment) : Variable.PieceEmbedding := fun loops v r text => do
  let nodes ← readNodes text !loops.isEmpty
  (traceNodes (env.nested (embeddedArguments v r) text) loops true nodes).toResult

/-- Refuses embedded text with directives. -/
def embedNoPieces (env : Environment) : Variable.PieceEmbedding := fun _ v _ _ =>
  .error (v.fail env (.dynamicDepthExceeded env.config.maxDynamicDepth))

/-- What becomes of embedded text with the given number of levels left, in pieces. -/
def embeddingPieces : Nat → Environment → Variable.PieceEmbedding
  | 0, env => embedNoPieces env
  | levels + 1, env =>
    embedTextPieces (fun env => Node.traceAll (embeddingPieces levels env) env) env

/-- The same as SQL. -/
def embedding : Nat → Environment → Variable.Embedding
  | 0, env => embedNothing env
  | levels + 1, env => embedText (evaluateWithin levels) env

/-- The trace of nodes. -/
def traceNodes (env : Environment) (loops : List Loop) (enabled : Bool)
    (ns : List Node) : Trace :=
  Node.traceAll (embeddingPieces env.remainingDepth env) env loops enabled ns

/-- What the evaluation of the template adds, in pieces. -/
def pieces (t : Template) (arguments : Arguments) (config : Config) :
    Except TemplateError (List Piece) :=
  (traceNodes ⟨arguments, config, t.source, 0⟩ [] true t.nodes).toResult

theorem map_embedTextPieces
    {traceNodes : Environment → List Loop → Bool → List Node → Trace}
    {evaluateNodes : Environment → List Loop → Bool → List Node → Run}
    (h : ∀ env loops enabled ns,
      (traceNodes env loops enabled ns).run enabled = evaluateNodes env loops enabled ns)
    (env : Environment) (loops : List Loop) (v : Variable) (r : Resolved) (text : String) :
    (embedTextPieces traceNodes env loops v r text).map .ofPieces =
      embedText evaluateNodes env loops v r text := by
  unfold embedTextPieces embedText
  cases readNodes text !loops.isEmpty with
  | error e => rfl
  | ok nodes =>
      have hrun := Trace.toResult_run
        (traceNodes (env.nested (embeddedArguments v r) text) loops true nodes) true
      rw [h] at hrun
      exact hrun.symm

theorem evaluateWithin_eq_evaluateAll (levels : Nat) (env : Environment)
    (loops : List Loop) (enabled : Bool) (ns : List Node) :
    evaluateWithin levels env loops enabled ns =
      Node.evaluateAll (embedding levels env) env loops enabled ns := by
  cases levels with
  | zero => rfl
  | succ levels => rfl

/-- At every level the pieces of embedded text are its SQL. -/
theorem isOf_embeddingPieces (levels : Nat) (env : Environment) :
    (embeddingPieces levels env).IsOf (embedding levels env) := by
  induction levels generalizing env with
  | zero =>
      intro loops v r text
      rfl
  | succ levels ih =>
      refine map_embedTextPieces ?_ env
      intro env loops enabled ns
      rw [evaluateWithin_eq_evaluateAll]
      exact Node.run_traceAll (ih env) env loops enabled ns

/-- The trace of nodes is the history of their run. -/
theorem run_traceNodes (env : Environment) (loops : List Loop) (enabled : Bool)
    (ns : List Node) :
    (traceNodes env loops enabled ns).run enabled = evaluateNodes env loops enabled ns := by
  rw [evaluateNodes, evaluateWithin_eq_evaluateAll]
  exact Node.run_traceAll (isOf_embeddingPieces env.remainingDepth env) env loops enabled ns

/-- The pieces of a template are its SQL. -/
theorem map_pieces (t : Template) (arguments : Arguments) (config : Config) :
    (t.pieces arguments config).map .ofPieces = t.evaluate arguments config := by
  rw [pieces, ← Trace.toResult_run _ true, run_traceNodes]
  rfl

end SqlTemplate.Template
