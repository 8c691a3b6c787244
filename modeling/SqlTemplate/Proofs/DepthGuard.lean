import Mathlib
import SqlTemplate.Proofs.Execution
import SqlTemplate.Proofs.Grammar
import SqlTemplate.Proofs.Lexemes
import SqlTemplate.Proofs.Simulation

/-!
# The bound on the depth of embedded texts

A text may embed itself. What ends such an evaluation is the bound on the depth: no context that
is made on the way is deeper (`Executes.depth_le`).

For all else the bound makes no difference. With more levels left an evaluation is the same unless
it has come to the bound with fewer (`Template.evaluateWithin_of_le`). So what a template gives
does not change when the bound is raised, be it a result or an error, unless it is the error of
the bound (`Template.evaluate_depth`).
-/

namespace SqlTemplate

open Template (Node)

/-- The error says that texts are embedded too deep. -/
def TemplateError.IsTooDeep (e : TemplateError) : Prop :=
  ∃ max, e.kind = .dynamicDepthExceeded max

/-- Errors are the same, but texts that are embedded too deep are excused. -/
def ErrorRelation.unlessTooDeep : ErrorRelation :=
  .unless fun kind => ∃ max, kind = .dynamicDepthExceeded max

/-- The environment at another depth and with another bound on it. -/
def Environment.atDepth (env : Environment) (depth max : Nat) : Environment :=
  { env with config := { env.config with maxDynamicDepth := max }, depth := depth }

/-- Nothing that is looked up depends on the depth. -/
theorem Environment.follows_atDepth (env : Environment) (depth max : Nat) :
    env.Follows .unlessTooDeep .univ (env.atDepth depth max) where
  likeEscape := rfl
  adjustConnector := rfl
  error _ _ := .inl rfl
  path _ _ _ _ := .refl _
  resolve _ _ _ := .refl _

namespace Template

/-- With more levels left embedded texts are the same unless they have come to the bound. -/
theorem embedding_of_le {levels levels' : Nat} (hle : levels ≤ levels') (env : Environment)
    (depth max : Nat) :
    EmbeddingsMatch .unlessTooDeep (embedding levels env)
      (embedding levels' (env.atDepth depth max)) := by
  induction levels generalizing levels' env depth with
  | zero =>
      intro loops v r text
      have hdeep : ErrorRelation.unlessTooDeep.Excused
          (v.fail env (.dynamicDepthExceeded env.config.maxDynamicDepth)).kind := ⟨_, rfl⟩
      exact .excused hdeep _
  | succ levels ih =>
      obtain ⟨levels', rfl⟩ := Nat.exists_eq_succ_of_ne_zero (Nat.ne_zero_of_lt hle)
      intro loops v r text
      refine (ResultsMatch.refl (readNodes text (!loops.isEmpty))).bind fun ns => ?_
      refine RunsMatch.toResult ?_
      exact runsMatch_evaluateWithin (Environment.follows_atDepth _ (depth + 1) max)
        (ih (Nat.le_of_succ_le_succ hle) _ (depth + 1)) loops true fun _ _ => trivial

/-- The same of all nodes. -/
theorem evaluateWithin_of_le {levels levels' : Nat} (hle : levels ≤ levels') (env : Environment)
    (depth max : Nat) (loops : List Loop) (enabled : Bool) (ns : List Node) :
    RunsMatch .unlessTooDeep (evaluateWithin levels env loops enabled ns)
      (evaluateWithin levels' (env.atDepth depth max) loops enabled ns) :=
  runsMatch_evaluateWithin (env.follows_atDepth depth max) (embedding_of_le hle env depth max) loops
    enabled fun _ _ => trivial

end Template

/-- If a context is made it is not deeper than that. -/
def Happening.Within (max : Nat) : Happening → Prop
  | .opened c => c.environment.depth ≤ max
  | .given _ | .taken _ => True

namespace Executes

variable {c c' : Context} {loops : List Loop} {task : Task} {failure : Option TemplateError}
  {log : List Happening}

/-- In a context that is within the bound only such contexts are made. -/
theorem depth_le (h : Executes c loops task c' failure log)
    (hdepth : c.environment.depth ≤ c.environment.config.maxDynamicDepth) :
    ∀ a ∈ log, a.Within c.environment.config.maxDynamicDepth := by
  induction h with
  | text | raised | passed | nil | noTurn => exact List.forall_mem_nil _
  | given => exact List.forall_mem_singleton.2 trivial
  | part _ _ ih | partFailed _ _ ih => exact List.forall_mem_cons.2 ⟨trivial, ih hdepth⟩
  | goesOn _ _ ih | loop _ _ _ ih | consFailed _ ih | turnFailed _ ih => exact ih hdepth
  | block _ _ ih | blockLeft _ _ ih | blockFailed _ ih =>
      exact List.forall_mem_cons.2 ⟨hdepth, ih hdepth⟩
  | embedded hembeds hremaining hread hns ih =>
      -- The text is one level deeper, and there was one left.
      have hnested := Nat.sub_pos_iff_lt.1 hremaining
      exact List.forall_mem_append.2
        ⟨List.forall_mem_cons.2 ⟨hnested, ih hnested⟩, List.forall_mem_singleton.2 trivial⟩
  | embeddedFailed hembeds hremaining hread hns ih =>
      have hnested := Nat.sub_pos_iff_lt.1 hremaining
      exact List.forall_mem_cons.2 ⟨hnested, ih hnested⟩
  | cons hn hns ihn ihns =>
      rw [hn.environment_eq] at ihns
      exact List.forall_mem_append.2 ⟨ihn hdepth, ihns hdepth⟩
  | turn hl hls ihl ihls =>
      rw [hl.environment_eq] at ihls
      exact List.forall_mem_append.2 ⟨ihl hdepth, ihls hdepth⟩

end Executes

namespace Template

/-- The evaluation of a template comes to an end, and in no execution of its nodes a context is
deeper than the bound. With a greater bound the template gives the same, unless it gives the error
of the bound. -/
theorem evaluate_depth (t : Template) (arguments : Arguments) (config : Config) :
    (∃ c failure log,
        Executes (.root arguments config t.source) [] (.nodes t.nodes) c failure log) ∧
      (∀ c failure log,
        Executes (.root arguments config t.source) [] (.nodes t.nodes) c failure log →
          t.evaluate arguments config = c.outcome failure ∧
            ∀ inner, (inner = .root arguments config t.source ∨ .opened inner ∈ log) →
              inner.environment.depth ≤ config.maxDynamicDepth) ∧
      ∀ max ≥ config.maxDynamicDepth,
        (∀ e, t.evaluate arguments config = .error e → ¬ e.IsTooDeep) →
          t.evaluate arguments { config with maxDynamicDepth := max } =
            t.evaluate arguments config := by
  refine ⟨exists_executes _ [] t.nodes, ?_, ?_⟩
  · intro c failure log h
    have hevaluate := executes_iff.1 ⟨log, h⟩
    refine ⟨Context.toResult_eq_outcome rfl hevaluate, ?_⟩
    rintro inner (rfl | hinner)
    · exact Nat.zero_le config.maxDynamicDepth
    · exact h.depth_le (Nat.zero_le config.maxDynamicDepth) _ hinner
  · intro max hmax
    exact (evaluateWithin_of_le hmax ⟨arguments, config, t.source, 0⟩ 0 max [] true
      t.nodes).toResult.eq_of_not_excused

/-- A text in a text is too deep for a bound of one, and it gives the same for all greater ones. -/
theorem evaluate_depth_nested :
    let value : Value := .map [("a", .string "/*$p.b*/x"), ("b", .string "c /* c */")]
    let v : Variable := ⟨"p.a", ⟨.argument "p", [.property "a"]⟩, .none, "x"⟩
    let t : Template := ⟨"/*$p.a*/x", [.embedded v .normal]⟩
    (∃ e, t.evaluate ⟨[("p", value)], []⟩ { maxDynamicDepth := 1 } = .error e ∧ e.IsTooDeep) ∧
      ∀ max ≥ 2, t.evaluate ⟨[("p", value)], []⟩ { maxDynamicDepth := max } =
        .ok (.ofSql "c /* c */") := by
  intro value v t
  let w : Variable := ⟨"p.b", ⟨.argument "p", [.property "b"]⟩, .none, "x"⟩
  let r : Resolved := ⟨value, value.type, .string "/*$p.b*/x", .string, none⟩
  let s : Resolved := ⟨value, value.type, .string "c /* c */", .string, none⟩
  let c (max : Nat) : Context := .root ⟨[("p", value)], []⟩ { maxDynamicDepth := max } t.source
  let d (max : Nat) : Context := (c max).nested (embeddedArguments v r) "/*$p.b*/x"
  have hlexes : (Cursor.ofText "/*$p.b*/x").Lexes _ none := .comment rfl (.stop rfl)
  have hread : readNodes "/*$p.b*/x" false = .ok [.embedded w .normal] := by
    rw [readNodes_eq_ok_iff, hlexes.readAll_eq]
    exact .node rfl (.stop rfl)
  have hread' : readNodes "c /* c */" false = .ok [.text "c ", .text "/* c */"] := by cbv
  have hv (max : Nat) : v.Embeds (c max).environment [] r "/*$p.b*/x" := ⟨by cbv, by cbv, rfl⟩
  have hw (max : Nat) : w.Embeds (d max).environment [] s "c /* c */" := ⟨by cbv, by cbv, rfl⟩
  have hone : Executes (c 1) [] (.nodes t.nodes) (c 1) (some _) _ :=
    .consFailed (.embeddedFailed (hv 1) Nat.one_pos hread
      (.consFailed (.raised (.tooDeep (List.mem_singleton_self _) (hw 1) rfl))))
  have htwo : Executes (c 2) [] (.nodes t.nodes) _ none _ :=
    .cons (.embedded (hv 2) Nat.two_pos hread
      (.cons (.embedded (hw 2) Nat.one_pos hread'
        (.cons (.text (.text _)) (.cons (.text (.text _)) .nil))) .nil)) .nil
  obtain ⟨-, hall, -⟩ := evaluate_depth t ⟨[("p", value)], []⟩ { maxDynamicDepth := 1 }
  obtain ⟨-, hall', hsame⟩ := evaluate_depth t ⟨[("p", value)], []⟩ { maxDynamicDepth := 2 }
  have hok : t.evaluate ⟨[("p", value)], []⟩ { maxDynamicDepth := 2 } =
      .ok (.ofSql "c /* c */") := (hall' _ _ _ htwo).1
  refine ⟨⟨_, (hall _ _ _ hone).1, 1, rfl⟩, ?_⟩
  intro max hmax
  refine (hsame max hmax ?_).trans hok
  intro e he
  cases hok.symm.trans he

end Template

end SqlTemplate
