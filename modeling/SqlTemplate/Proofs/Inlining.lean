import Mathlib
import SqlTemplate.Proofs.DepthGuard
import SqlTemplate.Proofs.Execution
import SqlTemplate.Proofs.Grammar
import SqlTemplate.Proofs.Lexemes
import SqlTemplate.Proofs.NodeTrace
import SqlTemplate.Proofs.Simulation

/-!
# Embedded texts in place

A text that is a template of its own is evaluated with one argument only, at the next depth and
in a context of its own. None of this makes a difference if it can be evaluated at all: its nodes
could as well stand in place of the variable (`Context.evaluate_of_embed`).

What is found with the one argument is found outside too (`Template.partOf_nested`), and at a
greater depth there are only fewer levels left (`Template.evaluateWithin_of_nested`). A context of
its own starts as one that counts, so the connectors in it are kept. Where connectors may be
dropped, the context around has to count for that as well (`toResult_evaluateNodes_eq`).
-/

namespace SqlTemplate

open Template (Node Variable readNodes embeddedArguments embedding evaluateNodes evaluateWithin
  traceNodes)

section Connectors

namespace Trace

theorem andThen_eq_of_forall {next : Bool → Trace} (h : ∀ enabled, next enabled = next true)
    (t : Trace) (enabled : Bool) : t.andThen enabled next = t.andThen true next := by
  rw [andThen, andThen, h (enabled || t.counts), h (true || t.counts)]

theorem all_eq_of_forall {fs : List (Bool → Trace)} (h : ∀ f ∈ fs, ∀ enabled, f enabled = f true)
    (enabled : Bool) : all fs enabled = all fs true := by
  induction fs generalizing enabled with
  | nil => rfl
  | cons f fs ih =>
      obtain ⟨hf, hfs⟩ := List.forall_mem_cons.1 h
      rw [all, all, hf enabled]
      exact andThen_eq_of_forall (ih hfs) (f true) enabled

end Trace

namespace Template.Node

variable {env : Environment}

mutual

/-- Where connectors are always kept it does not matter whether the block counts. -/
theorem trace_eq_of_keeps (h : env.config.adjustConnector = false)
    (embedding : Variable.PieceEmbedding) (loops : List Loop) (enabled : Bool) :
    (n : Node) → trace embedding env loops enabled n = trace embedding env loops true n
  | .text _ | .bind _ | .embedded _ _ | .block _ | .separator _ => rfl
  | .connector word rest => by
      rw [trace, trace]
      simp [Trace.andThen, h]
  | .ifBlock condition body otherwise => by
      rw [trace, trace, traceAll_eq_of_keeps h embedding loops enabled body,
        traceOption_eq_of_keeps h embedding loops enabled otherwise]
  | .forBlock expression path options body => by
      rw [trace, trace]
      split
      next => rfl
      next r _ =>
        split
        next elements _ =>
          refine Trace.all_eq_of_forall ?_ enabled
          intro f hf enabled
          obtain ⟨turn, -, rfl⟩ := List.mem_map.1 hf
          exact traceAll_eq_of_keeps h embedding (turn :: loops) enabled body
        next => rfl
  | .first body | .last body => by
      rw [trace, trace, traceAll_eq_of_keeps h embedding loops enabled body]

/-- The same of nodes that stand one behind the other. -/
theorem traceAll_eq_of_keeps (h : env.config.adjustConnector = false)
    (embedding : Variable.PieceEmbedding) (loops : List Loop) (enabled : Bool) :
    (ns : List Node) →
      traceAll embedding env loops enabled ns = traceAll embedding env loops true ns
  | [] => rfl
  | n :: ns => by
      rw [traceAll, traceAll, trace_eq_of_keeps h embedding loops enabled n]
      exact Trace.andThen_eq_of_forall
        (fun enabled => traceAll_eq_of_keeps h embedding loops enabled ns) _ enabled

/-- The same of the second part of a condition. -/
theorem traceOption_eq_of_keeps (h : env.config.adjustConnector = false)
    (embedding : Variable.PieceEmbedding) (loops : List Loop) (enabled : Bool) :
    (otherwise : Option (List Node)) →
      traceOption embedding env loops enabled otherwise =
        traceOption embedding env loops true otherwise
  | none => rfl
  | some ns => by
      rw [traceOption, traceOption, traceAll_eq_of_keeps h embedding loops enabled ns]

end

end Template.Node

/-- What nodes add in a block that counts they add in any block where connectors are kept. -/
theorem toResult_evaluateNodes_eq {env : Environment} {enabled : Bool}
    (h : enabled = true ∨ env.config.adjustConnector = false) (loops : List Loop)
    (ns : List Node) :
    (evaluateNodes env loops enabled ns).toResult = (evaluateNodes env loops true ns).toResult := by
  rcases h with rfl | h
  · rfl
  · have htrace : traceNodes env loops enabled ns = traceNodes env loops true ns :=
      Node.traceAll_eq_of_keeps h _ loops enabled ns
    rw [← Template.run_traceNodes, ← Template.run_traceNodes, htrace, Trace.toResult_run,
      Trace.toResult_run]

end Connectors

namespace Environment

/-- All that is found at the start of a path in the one environment is found in the other one. -/
structure PartOf (inner env : Environment) : Prop where
  config : env.config = inner.config
  root : ∀ (root : PathRoot) loops first,
    root.resolve inner loops = .ok first → root.resolve env loops = .ok first

namespace PartOf

variable {inner env : Environment}

theorem follow (h : inner.PartOf env) {p : Path} {loops : List Loop} {r : Resolved}
    (hr : p.follow inner loops = .ok r) : p.follow env loops = .ok r := by
  obtain ⟨first, hfirst, hr⟩ := Except.bind_eq_ok_iff.1 hr
  exact Except.bind_eq_ok_iff.2 ⟨first, h.root p.root loops first hfirst, hr⟩

theorem path (h : inner.PartOf env) (p : Path) (expression : String) (loops : List Loop) :
    ResultsMatch (.unless fun _ => True) (p.resolve expression inner loops)
      (p.resolve expression env loops) := by
  refine .of_ok fun r hr => ?_
  exact Except.mapError_eq_ok_iff.2 (h.follow (Except.mapError_eq_ok_iff.1 hr))

/-- What can be evaluated in a part of an environment is evaluated the same in all of it. -/
theorem follows (h : inner.PartOf env) : inner.Follows (.unless fun _ => True) .univ env where
  likeEscape := congrArg Config.likeEscape h.config
  adjustConnector := congrArg Config.adjustConnector h.config
  error _ _ := .inr trivial
  path p expression loops _ := h.path p expression loops
  resolve v loops _ := by
    refine (h.path v.path v.expression loops).bind fun r => ?_
    rw [h.config]
    dsimp only
    split
    next => exact .excused trivial _
    next => exact .refl _

end PartOf

end Environment

theorem PathRoot.resolve_single (name start : String) (v : Value) (type : ValueType)
    (env : Environment) (text : String) (loops : List Loop) :
    (PathRoot.argument name).resolve (env.nested (.single start v type) text) loops =
      if start = name then .ok (v, type) else .error (.argumentNotFound name) := by
  by_cases h : start = name
  · subst h
    simp [resolve, Environment.nested, Arguments.single, Arguments.typeOf, Entries.get?_cons]
  · simp [resolve, Environment.nested, Arguments.single, Entries.get?_cons, h]

theorem Resolved.withLike_eq (r : Resolved) (option : Option Like) (escape : Char) :
    ∃ target like, r.withLike option escape = { r with target := target, like := like } := by
  unfold withLike
  split
  next => exact ⟨_, _, rfl⟩
  next => exact ⟨r.target, r.like, rfl⟩

namespace Template

/-- The value of a variable comes from where its path starts. -/
theorem Variable.root_resolve_eq {env : Environment} {loops : List Loop} {v : Variable}
    {r : Resolved} (h : v.resolve env loops = .ok r) :
    v.path.root.resolve env loops = .ok (r.first, r.firstType) := by
  obtain ⟨s, hs, h⟩ := Except.bind_eq_ok_iff.1 h
  obtain ⟨first, hfirst, hs⟩ := Except.bind_eq_ok_iff.1 (Except.mapError_eq_ok_iff.1 hs)
  obtain ⟨w, -, hs⟩ := Except.bind_eq_ok_iff.1 hs
  cases hs
  obtain ⟨target, like, hlike⟩ := Resolved.withLike_eq
    ⟨first.1, first.2, w.value, w.type, none⟩ (v.options.effective (Loop.inheritedLike loops))
    env.config.likeEscape
  dsimp only at h
  rw [hlike] at h
  split at h
  next => cases h
  next =>
    cases h
    exact hfirst

/-- The one argument of an embedded text is found outside too. -/
theorem partOf_nested {env : Environment} {loops : List Loop} {v : Variable} {r : Resolved}
    (h : v.resolve env loops = .ok r) (text : String) :
    (env.nested (embeddedArguments v r) text).PartOf env where
  config := rfl
  root root loops' first hfirst := by
    have hstart := Variable.root_resolve_eq h
    cases root with
    | loop => exact hfirst
    | argument name =>
        cases hroot : v.path.root with
        | loop =>
            have harguments : embeddedArguments v r = .empty := by
              simp [embeddedArguments, Path.argument?, hroot]
            rw [harguments] at hfirst
            cases hfirst
        | argument start =>
            have harguments : embeddedArguments v r = .single start r.first r.firstType := by
              simp [embeddedArguments, Path.argument?, hroot]
            rw [harguments, PathRoot.resolve_single] at hfirst
            split at hfirst
            next hname =>
              cases hfirst
              rw [hroot, hname] at hstart
              exact hstart
            next => cases hfirst

/-- Texts that are embedded further in are the same a level further out. -/
theorem embeddingsMatch_nested (levels : Nat) (env : Environment) (arguments : Arguments)
    (text : String) :
    EmbeddingsMatch (.unless fun _ => True) (embedding levels (env.nested arguments text))
      (embedding (levels + 1) env) := by
  intro loops v r inner
  cases levels with
  | zero => exact .excused trivial _
  | succ levels =>
      -- The inner text is given its one argument in both, so they differ in the depth alone.
      refine (ResultsMatch.refl (readNodes inner (!loops.isEmpty))).bind fun ns => ?_
      have hlevel := evaluateWithin_of_le (Nat.le_succ levels)
        ((env.nested arguments text).nested (embeddedArguments v r) inner) (env.depth + 1)
        env.config.maxDynamicDepth loops true ns
      exact .of_ok fun _ hresult => hlevel.toResult.eq_ok hresult

/-- What nodes add in the environment of an embedded text they add outside too. -/
theorem evaluateWithin_of_nested {env : Environment} {loops : List Loop} {v : Variable}
    {r : Resolved} (h : v.resolve env loops = .ok r) (text : String) (levels : Nat)
    (loops' : List Loop) (enabled : Bool) (ns : List Node) :
    RunsMatch (.unless fun _ => True)
      (evaluateWithin levels (env.nested (embeddedArguments v r) text) loops' enabled ns)
      (evaluateWithin (levels + 1) env loops' enabled ns) :=
  runsMatch_evaluateWithin (partOf_nested h text).follows (embeddingsMatch_nested levels env _ text)
    loops' enabled fun _ _ => trivial

end Template

namespace Context

variable {c c' : Context} {loops : List Loop} {v : Variable} {mode : Template.EmbeddedMode}
  {r : Resolved} {text : String}

/-- An embedded text adds what its nodes give with one level less. -/
theorem exists_added_of_embed (hembeds : v.Embeds c.environment loops r text)
    (h : c.embed loops v mode = (c', none)) :
    ∃ levels ns added, c.environment.remainingDepth = levels + 1 ∧
      readNodes text (!loops.isEmpty) = .ok ns ∧
      (evaluateWithin levels (c.environment.nested (embeddedArguments v r) text) loops true
        ns).toResult = .ok added ∧
      c' = ⟨c.environment, c.added ++ added, true⟩ := by
  rw [embed_eq, hembeds.embedded_eq] at h
  cases hlevels : c.environment.remainingDepth with
  | zero =>
      rw [hlevels] at h
      cases h
  | succ levels =>
      cases hadded : embedding (levels + 1) c.environment loops v r text with
      | error e =>
          rw [hlevels, hadded] at h
          cases h
      | ok added =>
          rw [hlevels, hadded] at h
          cases h
          obtain ⟨ns, hread, hns⟩ := Except.bind_eq_ok_iff.1 hadded
          exact ⟨levels, ns, added, rfl, hread, hns, rfl⟩

/-- An embedded text that can be evaluated adds what its nodes add in place of the variable, if
the context counts or connectors are kept in any case. -/
theorem evaluate_of_embed (hembeds : v.Embeds c.environment loops r text)
    (hflag : c.enabled = true ∨ c.environment.config.adjustConnector = false)
    (h : c.embed loops v mode = (c', none)) :
    ∃ ns added enabled, readNodes text (!loops.isEmpty) = .ok ns ∧
      c' = ⟨c.environment, c.added ++ added, true⟩ ∧
      c.evaluate loops ns = (⟨c.environment, c.added ++ added, enabled⟩, none) := by
  obtain ⟨levels, ns, added, hlevels, hread, hinner, rfl⟩ := exists_added_of_embed hembeds h
  have houter : (evaluateNodes c.environment loops true ns).toResult = .ok added := by
    have hsame := Template.evaluateWithin_of_nested hembeds.1 text levels loops true ns
    rw [← hlevels] at hsame
    exact hsame.toResult.eq_ok hinner
  have hplace : (evaluateNodes c.environment loops c.enabled ns).toResult = .ok added :=
    (toResult_evaluateNodes_eq hflag loops ns).trans houter
  obtain ⟨hfailure, hadded⟩ := Run.toResult_eq_ok_iff.1 hplace
  refine ⟨ns, added, (evaluateNodes c.environment loops c.enabled ns).enabled, hread, rfl, ?_⟩
  rw [evaluate, goOn_eq_iff, hadded]
  exact ⟨rfl, hfailure.symm⟩

/-- A variable in the text leads to the same value in either place. -/
theorem evaluate_of_embed_variable :
    let value : Value := .map [("text", .string "id = /*p.id*/0"), ("id", .int32 7)]
    let v : Variable := ⟨"p.text", ⟨.argument "p", [.property "text"]⟩, .none, "x"⟩
    let r : Resolved := ⟨value, value.type, .string "id = /*p.id*/0", .string, none⟩
    let c : Context := .root ⟨[("q", .null), ("p", value)], []⟩ {} "/*$p.text*/x"
    let sql : BoundSql := ⟨"id = ?", [.int32 7], [.integer]⟩
    v.Embeds c.environment [] r "id = /*p.id*/0" ∧ c.enabled = true ∧
      c.embed [] v .normal = (⟨c.environment, sql, true⟩, none) ∧
      ∃ ns enabled, readNodes "id = /*p.id*/0" false = .ok ns ∧
        c.evaluate [] ns = (⟨c.environment, sql, enabled⟩, none) := by
  intro value v r c sql
  have hembeds : v.Embeds c.environment [] r "id = /*p.id*/0" := ⟨by cbv, by cbv, rfl⟩
  have hlexes : (Template.Cursor.ofText "id = /*p.id*/0").Lexes _ none :=
    .text rfl (.comment rfl (.stop rfl))
  have hread : readNodes "id = /*p.id*/0" false =
      .ok [.text "id = ", .bind ⟨"p.id", ⟨.argument "p", [.property "id"]⟩, .none, "0"⟩] := by
    rw [Template.readNodes_eq_ok_iff, hlexes.readAll_eq]
    exact .text (.node rfl (.stop rfl))
  have hbound : Executes c [] (.nodes [.embedded v .normal]) ⟨c.environment, sql, true⟩ none _ :=
    .cons (.embedded hembeds (by decide) hread
      (.cons (.text (.text _)) (.cons (.given (.bound (by cbv))) .nil))) .nil
  have hembed : c.embed [] v .normal = (⟨c.environment, sql, true⟩, none) :=
    executes_iff.1 ⟨_, hbound⟩
  obtain ⟨ns, added, enabled, hns, hadded, hevaluate⟩ :=
    evaluate_of_embed hembeds (.inl rfl) hembed
  have hsql : sql = c.added ++ added := congrArg Context.added hadded
  refine ⟨hembeds, rfl, hembed, ns, enabled, hns, ?_⟩
  rw [hevaluate, hsql]

end Context

end SqlTemplate
