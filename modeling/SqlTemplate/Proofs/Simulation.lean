import Mathlib
import SqlTemplate.Proofs.Scenes

/-!
# Evaluations that are the same but for errors

Nodes that are evaluated in two environments give the same if the same is looked up in both. What
may differ are the errors. Either an error is like the one in its place, as where an error shows the
arguments and these are others; or it is excused, as where one level more for embedded texts may
mend it, and then the second evaluation may come to anything. What errors are alike and what errors
are excused is said by a relation on errors (`ErrorRelation`).

Results match if they are the same value, or errors that are alike, or if the first one is an
excused error (`ResultsMatch`); so for runs (`RunsMatch`). The one environment follows the other one
on some arguments if what is looked up in it matches wherever no other argument is named
(`Environment.Follows`). Then all nodes match that mention no other argument
(`Template.Node.runsMatch_evaluate`).
-/

namespace SqlTemplate

open Template (Node Variable)

/-- Which errors may stand for which, and which ones are excused. Neither depends on the clause that
an error names. -/
structure ErrorRelation where
  Alike : TemplateError → TemplateError → Prop
  Excused : ErrorKind → Prop
  refl : ∀ e, Alike e e
  withClause : ∀ {e e'} clause, Alike e e' → Alike (e.withClause clause) (e'.withClause clause)

/-- Errors are the same, but some are excused. -/
def ErrorRelation.unless (Excused : ErrorKind → Prop) : ErrorRelation where
  Alike e e' := e = e'
  Excused := Excused
  refl _ := rfl
  withClause clause h := congrArg (·.withClause clause) h

section Results

variable {R : ErrorRelation} {α β : Type}

/-- The results are the same, but for the errors. -/
inductive ResultsMatch (R : ErrorRelation) {α : Type} :
    Except TemplateError α → Except TemplateError α → Prop where
  | ok (a : α) : ResultsMatch R (.ok a) (.ok a)
  | error {e e' : TemplateError} (h : R.Alike e e') : ResultsMatch R (.error e) (.error e')
  | excused {e : TemplateError} (he : R.Excused e.kind) (r' : Except TemplateError α) :
      ResultsMatch R (.error e) r'

namespace ResultsMatch

variable {r r' : Except TemplateError α}

theorem refl (r : Except TemplateError α) : ResultsMatch R r r := by
  cases r with
  | error e => exact .error (R.refl e)
  | ok a => exact .ok a

theorem bind (h : ResultsMatch R r r') {f f' : α → Except TemplateError β}
    (hf : ∀ a, ResultsMatch R (f a) (f' a)) : ResultsMatch R (r >>= f) (r' >>= f') := by
  cases h with
  | ok a => exact hf a
  | error h => exact .error h
  | excused he => exact .excused he _

theorem map (h : ResultsMatch R r r') (f : α → β) : ResultsMatch R (r.map f) (r'.map f) := by
  cases h with
  | ok a => exact .ok (f a)
  | error h => exact .error h
  | excused he => exact .excused he _

theorem withClause (h : ResultsMatch R r r') (clause : String) :
    ResultsMatch R (r.mapError (·.withClause clause)) (r'.mapError (·.withClause clause)) := by
  cases h with
  | ok a => exact .ok a
  | error h => exact .error (R.withClause clause h)
  | @excused e he =>
      have he : R.Excused (e.withClause clause).kind := he
      exact .excused he _

theorem eq_ok (h : ResultsMatch R r r') {a : α} (hr : r = .ok a) : r' = .ok a := by
  cases h with
  | ok b => exact hr
  | error | excused => cases hr

/-- Where no error is excused errors are alike. -/
theorem exists_error (h : ResultsMatch R r r') (hexcused : ∀ kind, ¬ R.Excused kind)
    {e : TemplateError} (hr : r = .error e) : ∃ e', r' = .error e' ∧ R.Alike e e' := by
  cases h with
  | ok => cases hr
  | error h =>
      cases hr
      exact ⟨_, rfl, h⟩
  | excused he => exact absurd he (hexcused _)

section Unless

variable {Excused : ErrorKind → Prop}

theorem eq_or_excused (h : ResultsMatch (.unless Excused) r r') :
    r = r' ∨ ∃ e, r = .error e ∧ Excused e.kind := by
  cases h with
  | ok => exact .inl rfl
  | error h => exact .inl (congrArg Except.error h)
  | excused he => exact .inr ⟨_, rfl, he⟩

theorem eq_of_not_excused (h : ResultsMatch (.unless Excused) r r')
    (hr : ∀ e, r = .error e → ¬ Excused e.kind) : r' = r := by
  rcases h.eq_or_excused with rfl | ⟨e, he, hexcused⟩
  · rfl
  · exact absurd hexcused (hr e he)

/-- Where all errors are excused only a value has to be the same. -/
theorem of_ok (h : ∀ a, r = .ok a → r' = .ok a) : ResultsMatch (.unless fun _ => True) r r' := by
  cases r with
  | error e => exact .excused trivial r'
  | ok a =>
      rw [h a rfl]
      exact .ok a

end Unless

end ResultsMatch

/-- The runs are the same, but for the errors. -/
inductive RunsMatch (R : ErrorRelation) : Run → Run → Prop where
  | same (r : Run) : RunsMatch R r r
  | failed (added : BoundSql) (enabled : Bool) {e e' : TemplateError} (h : R.Alike e e') :
      RunsMatch R ⟨added, enabled, some e⟩ ⟨added, enabled, some e'⟩
  | excused {r : Run} {e : TemplateError} (hr : r.failure = some e) (he : R.Excused e.kind)
      (r' : Run) : RunsMatch R r r'

namespace RunsMatch

variable {r r' : Run}

theorem ofResult {s s' : Except TemplateError BoundSql} (h : ResultsMatch R s s')
    (enabled : Bool) : RunsMatch R (.ofResult s enabled) (.ofResult s' enabled) := by
  cases h with
  | ok => exact .same _
  | error h => exact .failed .empty enabled h
  | excused he => exact .excused rfl he _

theorem toResult (h : RunsMatch R r r') : ResultsMatch R r.toResult r'.toResult := by
  cases h with
  | same => exact .refl _
  | failed _ _ h => exact .error h
  | excused hr he =>
      rw [Run.toResult_eq_error_iff.2 hr]
      exact .excused he _

theorem enable (h : RunsMatch R r r') : RunsMatch R r.enable r'.enable := by
  cases h with
  | same => exact .same _
  | failed added enabled h => exact .failed added enabled h
  | excused hr he => exact .excused ((Run.failure_enable r).trans hr) he _

theorem asBlock (h : RunsMatch R r r') (enabled : Bool) :
    RunsMatch R (r.asBlock enabled) (r'.asBlock enabled) := by
  cases h with
  | same => exact .same _
  | failed _ _ h => exact .failed .empty enabled h
  | excused hr he =>
      refine .excused ?_ he _
      rw [Run.asBlock, hr]
      rfl

theorem andThen (h : RunsMatch R r r') {next next' : Bool → Run}
    (hnext : ∀ enabled, RunsMatch R (next enabled) (next' enabled)) :
    RunsMatch R (r.andThen next) (r'.andThen next') := by
  cases h with
  | failed added enabled h => exact .failed added enabled h
  | excused hr he =>
      refine .excused ?_ he _
      rw [Run.andThen, hr]
      exact hr
  | same =>
      rw [Run.andThen, Run.andThen]
      split
      next => exact .same _
      next =>
        have hs := hnext r.enabled
        generalize next r.enabled = s at hs ⊢
        generalize next' r.enabled = s' at hs ⊢
        cases hs with
        | same => exact .same _
        | failed _ _ h => exact .failed _ _ h
        | excused hs he =>
            refine .excused ?_ he _
            exact hs

theorem all {ι : Type} (xs : List ι) {f f' : ι → Bool → Run}
    (hf : ∀ x enabled, RunsMatch R (f x enabled) (f' x enabled)) (enabled : Bool) :
    RunsMatch R (Run.all (xs.map f) enabled) (Run.all (xs.map f') enabled) := by
  induction xs generalizing enabled with
  | nil => exact .same _
  | cons x xs ih => exact (hf x enabled).andThen ih

end RunsMatch

end Results

/-- What is looked up in the second environment matches what is looked up in the first one, if no
other arguments are named. -/
structure Environment.Follows (R : ErrorRelation) (names : Set String) (env env' : Environment) :
    Prop where
  likeEscape : env'.config.likeEscape = env.config.likeEscape
  adjustConnector : env'.config.adjustConnector = env.config.adjustConnector
  error : ∀ kind expression,
    R.Alike (env.error kind expression) (env'.error kind expression) ∨ R.Excused kind
  path : ∀ (p : Path) expression loops, (∀ name ∈ p.argument?, name ∈ names) →
    ResultsMatch R (p.resolve expression env loops) (p.resolve expression env' loops)
  resolve : ∀ (v : Variable) loops, (∀ name ∈ v.path.argument?, name ∈ names) →
    ResultsMatch R (v.resolve env loops) (v.resolve env' loops)

namespace Environment.Follows

variable {R : ErrorRelation} {names : Set String} {env env' : Environment} {α : Type}

theorem failed (h : Follows R names env env') (kind : ErrorKind) (expression : String) :
    ResultsMatch R (.error (env.error kind expression) : Except TemplateError α)
      (.error (env'.error kind expression)) := by
  rcases h.error kind expression with halike | he
  · exact .error halike
  · exact .excused he _

theorem mapError (h : Follows R names env env') (r : Except ErrorKind α) (expression : String) :
    ResultsMatch R (r.mapError (env.error · expression))
      (r.mapError (env'.error · expression)) := by
  cases r with
  | error kind => exact h.failed kind expression
  | ok a => exact .ok a

end Environment.Follows

section Conditions

variable {R : ErrorRelation} {names : Set String} {env env' : Environment}

theorem Term.resultsMatch_evaluate (h : env.Follows R names env') {t : Term}
    (hnames : ∀ p, t.path? = some p → ∀ name ∈ p.argument?, name ∈ names) (expression : String)
    (loops : List Loop) :
    ResultsMatch R (t.evaluate expression env loops) (t.evaluate expression env' loops) := by
  cases t with
  | path p => exact (h.path p expression loops (hnames p rfl)).map Resolved.target
  | null | bool | string | date | number => exact .ok _

theorem Clause.resultsMatch_evaluate (h : env.Follows R names env') {c : Clause}
    (hnames : ∀ p ∈ c.paths, ∀ name ∈ p.argument?, name ∈ names) (expression : String)
    (loops : List Loop) :
    ResultsMatch R (c.evaluate expression env loops) (c.evaluate expression env' loops) := by
  have hterm : ∀ t ∈ c.terms, ∀ p, t.path? = some p → ∀ name ∈ p.argument?, name ∈ names :=
    fun t ht p hp => hnames p (List.mem_filterMap.2 ⟨t, ht, hp⟩)
  rw [terms] at hterm
  rw [evaluate, evaluate]
  refine ResultsMatch.withClause ?_ c.source
  cases hkind : c.kind with
  | comparison left operator right =>
      rw [hkind, List.forall_mem_cons, List.forall_mem_cons] at hterm
      refine (Term.resultsMatch_evaluate h hterm.1 expression loops).bind fun a => ?_
      refine (Term.resultsMatch_evaluate h hterm.2.1 expression loops).bind fun b => ?_
      exact h.mapError _ expression
  | standalone negated term =>
      rw [hkind, List.forall_mem_cons] at hterm
      refine (Term.resultsMatch_evaluate h hterm.1 expression loops).bind fun v => ?_
      split
      next => exact .ok _
      next => exact h.failed _ expression

theorem Condition.resultsMatch_evaluate (h : env.Follows R names env') {c : Condition}
    (hnames : ∀ name ∈ c.argumentNames, name ∈ names) (loops : List Loop) :
    ResultsMatch R (c.evaluate env loops) (c.evaluate env' loops) := by
  have hclauses : ∀ clause ∈ c.clauses, ∀ p ∈ clause.paths, ∀ name ∈ p.argument?,
      name ∈ names := by
    intro clause hclause p hp name hname
    have hmem : p ∈ c.paths := List.mem_flatMap.2 ⟨clause, hclause, hp⟩
    exact hnames name (List.mem_filterMap.2 ⟨p, hmem, hname⟩)
  rw [evaluate, evaluate]
  generalize c.clauses = clauses at hclauses
  induction clauses with
  | nil => exact .ok _
  | cons clause clauses ih =>
      rw [List.forall_mem_cons] at hclauses
      refine (Clause.resultsMatch_evaluate h hclauses.1 c.expression loops).bind fun truth => ?_
      split
      next => exact .ok _
      next => exact ih hclauses.2

end Conditions

/-- What becomes of an embedded text matches. -/
def EmbeddingsMatch (R : ErrorRelation) (embedding embedding' : Variable.Embedding) : Prop :=
  ∀ loops v r text, ResultsMatch R (embedding loops v r text) (embedding' loops v r text)

namespace Template.Variable

variable {R : ErrorRelation} {names : Set String} {env env' : Environment} {v : Variable}

theorem withRear_eq (h : env'.config.likeEscape = env.config.likeEscape) (sql : BoundSql)
    (r : Resolved) : withRear sql r env' = withRear sql r env := by
  rw [withRear, withRear, h]

theorem resultsMatch_bound (h : env.Follows R names env')
    (hnames : ∀ name ∈ v.path.argument?, name ∈ names) (loops : List Loop) :
    ResultsMatch R (v.bound env loops) (v.bound env' loops) := by
  refine (h.resolve v loops hnames).bind fun r => ?_
  split
  next =>
    refine (h.mapError (elements r.target) v.expression).bind fun present => ?_
    exact .ok _
  next =>
    refine (h.mapError (scalar r.target) v.expression).bind fun w => ?_
    rw [withRear_eq h.likeEscape]
    exact .ok _

theorem resultsMatch_embedded {embedding embedding' : Embedding} (h : env.Follows R names env')
    (hembedding : EmbeddingsMatch R embedding embedding') (mode : EmbeddedMode)
    (hnames : ∀ name ∈ v.path.argument?, name ∈ names) (loops : List Loop) :
    ResultsMatch R (v.embedded embedding mode env loops)
      (v.embedded embedding' mode env' loops) := by
  refine (h.resolve v loops hnames).bind fun r => ?_
  split
  next =>
    refine (h.mapError (elements r.target) v.expression).bind fun present => ?_
    refine (h.mapError (present.mapM _) v.expression).bind fun parts => ?_
    exact .ok _
  next =>
    refine (h.mapError (scalar r.target) v.expression).bind fun w => ?_
    split
    next text _ => exact hembedding loops v r text
    next =>
      refine (h.mapError (embeddedText _ w) v.expression).bind fun s => ?_
      rw [withRear_eq h.likeEscape]
      exact .ok _

end Template.Variable

namespace Template.Node

variable {R : ErrorRelation} {names : Set String} {env env' : Environment}
  {embedding embedding' : Variable.Embedding}

mutual

/-- The evaluations of a node match in an environment that follows on the arguments that the node
mentions. -/
theorem runsMatch_evaluate (h : env.Follows R names env')
    (hembedding : EmbeddingsMatch R embedding embedding') (loops : List Loop) (enabled : Bool) :
    (n : Node) → (∀ name ∈ n.mentions, name ∈ names) →
      RunsMatch R (n.evaluate embedding env loops enabled)
        (n.evaluate embedding' env' loops enabled)
  | .text s, _ => .same _
  | .connector word rest, _ => by
      rw [evaluate, evaluate, h.adjustConnector]
      exact .same _
  | .bind v, hnames => by
      simp only [mentions, Option.mem_toList] at hnames
      exact .ofResult (Variable.resultsMatch_bound h hnames loops) enabled
  | .embedded v mode, hnames => by
      simp only [mentions, Option.mem_toList] at hnames
      exact .ofResult (Variable.resultsMatch_embedded h hembedding mode hnames loops) enabled
  | .ifBlock condition body otherwise, hnames => by
      rw [mentions, List.forall_mem_append, List.forall_mem_append] at hnames
      obtain ⟨⟨hcondition, hbody⟩, hotherwise⟩ := hnames
      have htruth := Condition.resultsMatch_evaluate h hcondition loops
      rw [evaluate, evaluate]
      generalize condition.evaluate env loops = truth at htruth ⊢
      generalize condition.evaluate env' loops = truth' at htruth ⊢
      cases htruth with
      | error h => exact .failed .empty enabled h
      | excused he => exact .excused rfl he _
      | ok truth =>
          cases truth with
          | true => exact (runsMatch_evaluateAll h hembedding loops enabled body hbody).enable
          | false =>
              exact runsMatch_evaluateOption h hembedding loops enabled otherwise hotherwise
  | .forBlock expression path options body, hnames => by
      simp only [mentions, List.forall_mem_append, Option.mem_toList] at hnames
      obtain ⟨hpath, hbody⟩ := hnames
      have hr := h.path path expression loops hpath
      rw [evaluate, evaluate]
      generalize path.resolve expression env loops = r at hr ⊢
      generalize path.resolve expression env' loops = r' at hr ⊢
      cases hr with
      | error h => exact .failed .empty enabled h
      | excused he => exact .excused rfl he _
      | ok r =>
          dsimp only
          split
          next elements _ =>
            refine .all _ (fun turn enabled => ?_) enabled
            exact runsMatch_evaluateAll h hembedding (turn :: loops) enabled body hbody
          next => exact .ofResult (h.failed _ expression) enabled
  | .block body, hnames =>
      (runsMatch_evaluateAll h hembedding loops false body hnames).asBlock enabled
  | .first body, hnames => by
      rw [evaluate, evaluate]
      split
      next => exact runsMatch_evaluateAll h hembedding loops enabled body hnames
      next => exact .same _
  | .last body, hnames => by
      rw [evaluate, evaluate]
      split
      next => exact runsMatch_evaluateAll h hembedding loops enabled body hnames
      next => exact .same _
  | .separator s, _ => .same _

/-- The same of nodes that stand one behind the other. -/
theorem runsMatch_evaluateAll (h : env.Follows R names env')
    (hembedding : EmbeddingsMatch R embedding embedding') (loops : List Loop) (enabled : Bool) :
    (ns : List Node) → (∀ name ∈ mentionsAll ns, name ∈ names) →
      RunsMatch R (evaluateAll embedding env loops enabled ns)
        (evaluateAll embedding' env' loops enabled ns)
  | [], _ => .same _
  | n :: ns, hnames => by
      rw [mentionsAll, List.forall_mem_append] at hnames
      refine (runsMatch_evaluate h hembedding loops enabled n hnames.1).andThen fun enabled => ?_
      exact runsMatch_evaluateAll h hembedding loops enabled ns hnames.2

/-- The same of the second part of a condition. -/
theorem runsMatch_evaluateOption (h : env.Follows R names env')
    (hembedding : EmbeddingsMatch R embedding embedding') (loops : List Loop) (enabled : Bool) :
    (otherwise : Option (List Node)) → (∀ name ∈ mentionsOption otherwise, name ∈ names) →
      RunsMatch R (evaluateOption embedding env loops enabled otherwise)
        (evaluateOption embedding' env' loops enabled otherwise)
  | none, _ => .same _
  | some ns, hnames => (runsMatch_evaluateAll h hembedding loops enabled ns hnames).enable

end

end Template.Node

namespace Template

variable {R : ErrorRelation} {names : Set String} {env env' : Environment} {levels levels' : Nat}

/-- With any number of levels left nodes match if embedded texts do. -/
theorem runsMatch_evaluateWithin (h : env.Follows R names env')
    (hembedding : EmbeddingsMatch R (embedding levels env) (embedding levels' env'))
    (loops : List Loop) (enabled : Bool) {ns : List Node}
    (hnames : ∀ name ∈ Node.mentionsAll ns, name ∈ names) :
    RunsMatch R (evaluateWithin levels env loops enabled ns)
      (evaluateWithin levels' env' loops enabled ns) := by
  rw [evaluateWithin_eq_evaluateAll, evaluateWithin_eq_evaluateAll]
  exact Node.runsMatch_evaluateAll h hembedding loops enabled ns hnames

end Template

end SqlTemplate
