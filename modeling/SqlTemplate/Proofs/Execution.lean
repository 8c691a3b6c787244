import Mathlib
import SqlTemplate.Evaluation.Context
import SqlTemplate.Proofs.Scenes

/-!
# The execution of nodes

The evaluation of nodes once more, by rules. Here a context is passed on from node to node, and
each rule says what a node does with it (`Executes`). An embedded text is executed in a context of
its own like any other nodes. No number of levels is passed on; what keeps an execution from going
on for ever is the depth of its context alone.

An execution keeps a record of what its result does not show: the contexts that are made on the
way, the variables that have given something and the parts of conditions that are taken.

Every execution comes to an end (`exists_executes`), and it leaves what the evaluation gives
(`Executes.perform_eq`). So the rules and the evaluation are the same (`executes_iff`).
-/

namespace SqlTemplate

open Template (Node Variable readNodes embeddedArguments embedding evaluateNodes)

namespace Template.Variable

/-- A text that is a template of its own is left to what embeds it. -/
theorem Embeds.embedded_eq {v : Variable} {env : Environment} {loops : List Loop} {r : Resolved}
    {text : String} (h : v.Embeds env loops r text) (mode : EmbeddedMode) (embedding : Embedding) :
    v.embedded embedding mode env loops = embedding loops v r text := by
  obtain ⟨hr, hembeds, htarget⟩ := h
  rw [embedsText, Bool.and_eq_true, Bool.not_eq_true', htarget] at hembeds
  obtain ⟨hscope, hcomment⟩ := hembeds
  have hfilter : (Value.string text).asString?.filter hasComment = some text :=
    Option.filter_eq_some_iff.2 ⟨rfl, hcomment⟩
  simp [embedded, hr, hscope, htarget, scalar, hfilter, bind, Except.bind, Except.mapError]

end Template.Variable

/-- What happens in an execution and does not show in its result. -/
inductive Happening where
  /-- A context is made, for a block or for an embedded text. -/
  | opened (c : Context)
  /-- A variable has given something. -/
  | given (v : Variable)
  /-- A part of a condition is taken. -/
  | taken (condition : Condition)

/-- What there is to execute. -/
inductive Task where
  | node (n : Node)
  /-- Nodes one after another. -/
  | nodes (ns : List Node)
  /-- The same nodes in one turn of a loop after another. -/
  | turns (turns : List Loop) (body : List Node)

namespace Template.Node

/-- The node adds a text of the template. -/
inductive AddsText (c : Context) (loops : List Loop) : Node → String → Prop where
  | text (s : String) : AddsText c loops (.text s) s
  | dropped {word rest : String} (henabled : c.enabled = false)
      (hadjust : c.environment.config.adjustConnector = true) :
      AddsText c loops (.connector word rest) rest
  | kept {word rest : String}
      (h : c.enabled = true ∨ c.environment.config.adjustConnector = false) :
      AddsText c loops (.connector word rest) (word ++ rest)
  | separator {s : String} (h : loops.head?.any (!·.isFirst) = true) :
      AddsText c loops (.separator s) s

/-- The node is a variable that gives something of its own. -/
inductive Gives (env : Environment) (loops : List Loop) : Node → Variable → BoundSql → Prop where
  | bound {v : Variable} {sql : BoundSql} (h : v.bound env loops = .ok sql) :
      Gives env loops (.bind v) v sql
  | embedded {v : Variable} {mode : EmbeddedMode} {sql : BoundSql}
      (h : ∀ embedding, v.embedded embedding mode env loops = .ok sql) :
      Gives env loops (.embedded v mode) v sql

/-- The node is a condition, and the part of it is taken. -/
inductive Takes (env : Environment) (loops : List Loop) :
    Node → Condition → List Node → Prop where
  | body {condition : Condition} {body : List Node} {otherwise : Option (List Node)}
      (h : condition.evaluate env loops = .ok true) :
      Takes env loops (.ifBlock condition body otherwise) condition body
  | otherwise {condition : Condition} {body second : List Node}
      (h : condition.evaluate env loops = .ok false) :
      Takes env loops (.ifBlock condition body (some second)) condition second

/-- The node is the part for an element of a loop that the loop is at. -/
inductive GoesOn (loops : List Loop) : Node → List Node → Prop where
  | first {body : List Node} (h : loops.head?.any Loop.isFirst = true) :
      GoesOn loops (.first body) body
  | last {body : List Node} (h : loops.head?.any Loop.isLast = true) :
      GoesOn loops (.last body) body

/-- The node does nothing. -/
inductive Passes (env : Environment) (loops : List Loop) : Node → Prop where
  | condition {condition : Condition} {body : List Node}
      (h : condition.evaluate env loops = .ok false) :
      Passes env loops (.ifBlock condition body none)
  | first {body : List Node} (h : loops.head?.any Loop.isFirst = false) :
      Passes env loops (.first body)
  | last {body : List Node} (h : loops.head?.any Loop.isLast = false) :
      Passes env loops (.last body)
  | separator {s : String} (h : loops.head?.any (!·.isFirst) = false) :
      Passes env loops (.separator s)

end Template.Node

/-- From the first context the task is executed in the loops. It leaves the second context and
the error that ended it if one did, and this is the record of what has happened. -/
inductive Executes :
    Context → List Loop → Task → Context → Option TemplateError → List Happening → Prop where
  | text {c loops n s} (h : Node.AddsText c loops n s) :
      Executes c loops (.node n) (c.add (.ofSql s)) none []
  | given {c loops n v sql} (h : Node.Gives c.environment loops n v sql) :
      Executes c loops (.node n) ((c.add sql).setEnabled true) none [.given v]
  | raised {c loops n e} (h : Scene.Raises ⟨c.environment, loops, [n]⟩ e) :
      Executes c loops (.node n) c (some e) []
  | passed {c loops n} (h : Node.Passes c.environment loops n) :
      Executes c loops (.node n) c none []
  | part {c loops n condition ns c' log} (h : Node.Takes c.environment loops n condition ns)
      (hns : Executes c loops (.nodes ns) c' none log) :
      Executes c loops (.node n) (c'.setEnabled true) none (.taken condition :: log)
  | partFailed {c loops n condition ns c' e log}
      (h : Node.Takes c.environment loops n condition ns)
      (hns : Executes c loops (.nodes ns) c' (some e) log) :
      Executes c loops (.node n) c' (some e) (.taken condition :: log)
  | goesOn {c loops n ns c' failure log} (h : Node.GoesOn loops n ns)
      (hns : Executes c loops (.nodes ns) c' failure log) :
      Executes c loops (.node n) c' failure log
  | loop {c loops expression path options body r elements c' failure log}
      (hr : path.resolve expression c.environment loops = .ok r)
      (htarget : r.target = .list elements)
      (hturns : Executes c loops
        (.turns (Loop.turns ⟨expression, elements, 0, options.like⟩) body) c' failure log) :
      Executes c loops (.node (.forBlock expression path options body)) c' failure log
  | block {c loops body inner log} (hbody : Executes c.child loops (.nodes body) inner none log)
      (h : inner.enabled = true) :
      Executes c loops (.node (.block body)) ((c.merge inner).setEnabled true) none
        (.opened c.child :: log)
  | blockLeft {c loops body inner log}
      (hbody : Executes c.child loops (.nodes body) inner none log) (h : inner.enabled = false) :
      Executes c loops (.node (.block body)) c none (.opened c.child :: log)
  | blockFailed {c loops body inner e log}
      (hbody : Executes c.child loops (.nodes body) inner (some e) log) :
      Executes c loops (.node (.block body)) c (some e) (.opened c.child :: log)
  | embedded {c loops v mode r text ns inner log} (hembeds : v.Embeds c.environment loops r text)
      (hdepth : 0 < c.environment.remainingDepth)
      (hread : readNodes text (!loops.isEmpty) = .ok ns)
      (hns : Executes (c.nested (embeddedArguments v r) text) loops (.nodes ns) inner none log) :
      Executes c loops (.node (.embedded v mode)) ((c.merge inner).setEnabled true) none
        (.opened (c.nested (embeddedArguments v r) text) :: log ++ [.given v])
  | embeddedFailed {c loops v mode r text ns inner e log}
      (hembeds : v.Embeds c.environment loops r text)
      (hdepth : 0 < c.environment.remainingDepth)
      (hread : readNodes text (!loops.isEmpty) = .ok ns)
      (hns : Executes (c.nested (embeddedArguments v r) text) loops (.nodes ns) inner (some e)
        log) :
      Executes c loops (.node (.embedded v mode)) c (some e)
        (.opened (c.nested (embeddedArguments v r) text) :: log)
  | nil {c loops} : Executes c loops (.nodes []) c none []
  | cons {c loops n ns c' log d failure log'} (hn : Executes c loops (.node n) c' none log)
      (hns : Executes c' loops (.nodes ns) d failure log') :
      Executes c loops (.nodes (n :: ns)) d failure (log ++ log')
  | consFailed {c loops n ns c' e log} (hn : Executes c loops (.node n) c' (some e) log) :
      Executes c loops (.nodes (n :: ns)) c' (some e) log
  | noTurn {c loops body} : Executes c loops (.turns [] body) c none []
  | turn {c loops l ls body c' log d failure log'}
      (hl : Executes c (l :: loops) (.nodes body) c' none log)
      (hls : Executes c' loops (.turns ls body) d failure log') :
      Executes c loops (.turns (l :: ls) body) d failure (log ++ log')
  | turnFailed {c loops l ls body c' e log}
      (hl : Executes c (l :: loops) (.nodes body) c' (some e) log) :
      Executes c loops (.turns (l :: ls) body) c' (some e) log

namespace Template.Node

variable {env : Environment} {loops : List Loop} {enabled : Bool} {n : Node}

theorem AddsText.evaluate_eq {c : Context} {s : String} (h : n.AddsText c loops s)
    (embedding : Variable.Embedding) :
    n.evaluate embedding c.environment loops c.enabled = .ofSql s c.enabled := by
  cases h with
  | text => rfl
  | dropped henabled hadjust => simp [evaluate, henabled, hadjust]
  | kept h => rcases h with h | h <;> simp [evaluate, h]
  | separator h => simp [evaluate, h]

theorem Gives.evaluate_eq {v : Variable} {sql : BoundSql} (h : n.Gives env loops v sql)
    (embedding : Variable.Embedding) :
    n.evaluate embedding env loops enabled = ⟨sql, true, none⟩ := by
  cases h with
  | bound h => rw [evaluate, h, Run.ofResult]
  | embedded h => rw [evaluate, h, Run.ofResult]

/-- An error that arises at a node is all that comes of it. -/
theorem evaluate_eq_of_raises {e : TemplateError} (h : Scene.Raises ⟨env, loops, [n]⟩ e) :
    n.evaluate (Template.embedding env.remainingDepth env) env loops enabled =
      .failed e enabled := by
  cases h with
  | bound hmem h =>
      cases List.mem_singleton.1 hmem
      rw [evaluate, h, Run.ofResult]
  | embedded hmem h =>
      cases List.mem_singleton.1 hmem
      rw [evaluate, h, Run.ofResult]
  | tooDeep hmem hembeds hdepth =>
      cases List.mem_singleton.1 hmem
      rw [evaluate, hembeds.embedded_eq, hdepth]
      rfl
  | unreadable hmem hembeds hdepth hread =>
      cases List.mem_singleton.1 hmem
      obtain ⟨levels, hlevels⟩ := Nat.exists_eq_succ_of_ne_zero hdepth.ne'
      rw [evaluate, hembeds.embedded_eq, hlevels, Template.embedding, embedText, hread]
      rfl
  | condition hmem h =>
      cases List.mem_singleton.1 hmem
      rw [evaluate, h]
  | source hmem h =>
      cases List.mem_singleton.1 hmem
      rw [evaluate, h]
  | notList hmem hr hlist =>
      cases List.mem_singleton.1 hmem
      rw [evaluate, hr]
      dsimp only
      split
      next elements helements => exact absurd helements (hlist elements)
      next => rfl

theorem Takes.evaluate_eq {condition : Condition} {ns : List Node}
    (h : n.Takes env loops condition ns) (embedding : Variable.Embedding) :
    n.evaluate embedding env loops enabled =
      (evaluateAll embedding env loops enabled ns).enable := by
  cases h with
  | body h => rw [evaluate, h]
  | otherwise h => rw [evaluate, h, evaluateOption]

theorem GoesOn.evaluate_eq {ns : List Node} (h : n.GoesOn loops ns)
    (embedding : Variable.Embedding) :
    n.evaluate embedding env loops enabled = evaluateAll embedding env loops enabled ns := by
  cases h with
  | first h => rw [evaluate, if_pos h]
  | last h => rw [evaluate, if_pos h]

theorem Passes.evaluate_eq (h : n.Passes env loops) (embedding : Variable.Embedding) :
    n.evaluate embedding env loops enabled = .idle enabled := by
  cases h with
  | condition h => rw [evaluate, h, evaluateOption]
  | first h => simp [evaluate, h]
  | last h => simp [evaluate, h]
  | separator h => simp [evaluate, h]

end Template.Node

/-- The run of the task. -/
def Task.run (embedding : Variable.Embedding) (env : Environment) (loops : List Loop)
    (enabled : Bool) : Task → Run
  | .node n => n.evaluate embedding env loops enabled
  | .nodes ns => Node.evaluateAll embedding env loops enabled ns
  | .turns ls body =>
    Run.all
      (ls.map fun l enabled => Node.evaluateAll embedding env (l :: loops) enabled body)
      enabled

namespace Context

/-- What has been added, or the error that came. -/
def outcome (c : Context) : Option TemplateError → Except TemplateError BoundSql
  | none => .ok c.added
  | some e => .error e

/-- Goes on with the run of the task. -/
def perform (c : Context) (loops : List Loop) (task : Task) : Context × Option TemplateError :=
  c.goOn fun enabled =>
    task.run (embedding c.environment.remainingDepth c.environment) c.environment loops enabled

theorem perform_nodes (c : Context) (loops : List Loop) (ns : List Node) :
    c.perform loops (.nodes ns) = c.evaluate loops ns := by
  have hlevels : ∀ enabled, evaluateNodes c.environment loops enabled ns =
      Node.evaluateAll (embedding c.environment.remainingDepth c.environment) c.environment loops
        enabled ns :=
    fun enabled => Template.evaluateWithin_eq_evaluateAll _ c.environment loops enabled ns
  simp only [evaluate, hlevels]
  rfl

section GoingOn

variable {c c' inner : Context} {failure : Option TemplateError} {e : TemplateError}
  {f g : Bool → Run}

theorem goOn_eq_iff :
    c.goOn f = (c', failure) ↔
      c' = ⟨c.environment, c.added ++ (f c.enabled).added, (f c.enabled).enabled⟩ ∧
        failure = (f c.enabled).failure := by
  rw [goOn, Prod.mk.injEq, eq_comm (b := c'), eq_comm (b := failure)]
  rfl

theorem environment_eq_of_goOn (h : c.goOn f = (c', failure)) :
    c'.environment = c.environment := by
  rw [(goOn_eq_iff.1 h).1]

theorem goOn_idle (c : Context) : c.goOn Run.idle = (c, none) := by
  rw [goOn_eq_iff, Run.idle, BoundSql.append_empty]
  exact ⟨rfl, rfl⟩

theorem toResult_eq_outcome (hadded : c.added = .empty) (h : c.goOn f = (c', failure)) :
    (f c.enabled).toResult = c'.outcome failure := by
  obtain ⟨rfl, rfl⟩ := goOn_eq_iff.1 h
  rw [Run.toResult]
  cases (f c.enabled).failure with
  | none => simp [outcome, hadded]
  | some e => rfl

theorem goOn_andThen (h : c.goOn f = (c', none)) :
    (c.goOn fun enabled => (f enabled).andThen g) = c'.goOn g := by
  obtain ⟨rfl, hfailure⟩ := goOn_eq_iff.1 h
  rw [goOn_eq_iff, Run.andThen, ← hfailure, ← BoundSql.append_assoc]
  exact ⟨rfl, rfl⟩

theorem goOn_andThen_of_failure (h : c.goOn f = (c', some e)) :
    (c.goOn fun enabled => (f enabled).andThen g) = (c', some e) := by
  obtain ⟨rfl, hfailure⟩ := goOn_eq_iff.1 h
  rw [goOn_eq_iff, Run.andThen, ← hfailure]
  exact ⟨rfl, hfailure⟩

theorem goOn_enable (h : c.goOn f = (c', none)) :
    (c.goOn fun enabled => (f enabled).enable) = (c'.setEnabled true, none) := by
  obtain ⟨rfl, hfailure⟩ := goOn_eq_iff.1 h
  rw [goOn_eq_iff, Run.enable, ← hfailure]
  exact ⟨rfl, rfl⟩

theorem goOn_enable_of_failure (h : c.goOn f = (c', some e)) :
    (c.goOn fun enabled => (f enabled).enable) = (c', some e) := by
  obtain ⟨rfl, hfailure⟩ := goOn_eq_iff.1 h
  rw [goOn_eq_iff, Run.enable, ← hfailure]
  exact ⟨rfl, hfailure⟩

/-- A block is merged into the context if it counts, and dropped if it does not. -/
theorem goOn_asBlock (h : c.child.goOn f = (inner, none)) :
    (c.goOn fun enabled => (f false).asBlock enabled) =
      (if inner.enabled then (c.merge inner).setEnabled true else c, none) := by
  obtain ⟨rfl, hfailure⟩ := goOn_eq_iff.1 h
  have hnone : (f false).failure = none := hfailure.symm
  rw [goOn_eq_iff, Run.asBlock, hnone]
  cases hcounts : (f false).enabled with
  | true => simp [hcounts, child, merge, add, setEnabled]
  | false => simp [hcounts, child, Run.idle]

theorem goOn_asBlock_of_failure (h : c.child.goOn f = (inner, some e)) :
    (c.goOn fun enabled => (f false).asBlock enabled) = (c, some e) := by
  obtain ⟨rfl, hfailure⟩ := goOn_eq_iff.1 h
  have hsome : (f false).failure = some e := hfailure.symm
  simp only [Run.asBlock, hsome]
  exact goOn_failed c e

end GoingOn

end Context

namespace Template

/-- An embedded text gives what its nodes leave in a context of their own. -/
theorem Variable.Embeds.embedded_eq_outcome {c inner : Context} {loops : List Loop} {v : Variable}
    {r : Resolved} {text : String} {ns : List Node} {failure : Option TemplateError}
    (h : v.Embeds c.environment loops r text) (hdepth : 0 < c.environment.remainingDepth)
    (hread : readNodes text (!loops.isEmpty) = .ok ns)
    (hns : (c.nested (embeddedArguments v r) text).evaluate loops ns = (inner, failure))
    (mode : EmbeddedMode) :
    v.embedded (embedding c.environment.remainingDepth c.environment) mode c.environment loops =
      inner.outcome failure := by
  obtain ⟨levels, hlevels⟩ := Nat.exists_eq_succ_of_ne_zero hdepth.ne'
  have hnested : evaluateNodes (c.environment.nested (embeddedArguments v r) text) loops true ns =
      evaluateWithin levels (c.environment.nested (embeddedArguments v r) text) loops true ns := by
    rw [evaluateNodes, Environment.remainingDepth_nested hlevels]
  rw [h.embedded_eq, hlevels, embedding, embedText, hread]
  dsimp only [bind, Except.bind]
  rw [← hnested]
  exact Context.toResult_eq_outcome rfl hns

end Template

namespace Executes

variable {c c' : Context} {loops : List Loop} {task : Task} {failure : Option TemplateError}
  {log : List Happening}

/-- An execution leaves what the evaluation gives. -/
theorem perform_eq (h : Executes c loops task c' failure log) :
    c.perform loops task = (c', failure) := by
  induction h with
  | text h =>
      rw [Context.perform, Context.goOn_eq_iff, Task.run, h.evaluate_eq]
      exact ⟨rfl, rfl⟩
  | given h =>
      rw [Context.perform, Context.goOn_eq_iff, Task.run, h.evaluate_eq]
      exact ⟨rfl, rfl⟩
  | raised h =>
      simp only [Context.perform, Task.run, Node.evaluate_eq_of_raises h]
      exact Context.goOn_failed _ _
  | passed h =>
      simp only [Context.perform, Task.run, h.evaluate_eq]
      exact Context.goOn_idle _
  | part h hns ih =>
      simp only [Context.perform, Task.run, h.evaluate_eq]
      exact Context.goOn_enable ih
  | partFailed h hns ih =>
      simp only [Context.perform, Task.run, h.evaluate_eq]
      exact Context.goOn_enable_of_failure ih
  | goesOn h hns ih =>
      simp only [Context.perform, Task.run, h.evaluate_eq]
      exact ih
  | loop hr htarget hturns ih =>
      simp only [Context.perform, Task.run, Node.evaluate, hr, htarget]
      exact ih
  | block hbody h ih =>
      simp only [Context.perform, Task.run, Node.evaluate]
      exact (Context.goOn_asBlock ih).trans (by rw [if_pos h])
  | blockLeft hbody h ih =>
      simp only [Context.perform, Task.run, Node.evaluate]
      exact (Context.goOn_asBlock ih).trans (by rw [h, if_neg Bool.false_ne_true])
  | blockFailed hbody ih =>
      simp only [Context.perform, Task.run, Node.evaluate]
      exact Context.goOn_asBlock_of_failure ih
  | embedded hembeds hdepth hread hns ih =>
      rw [Context.perform_nodes] at ih
      simp only [Context.perform, Task.run, Node.evaluate,
        hembeds.embedded_eq_outcome hdepth hread ih]
      exact Context.goOn_ofResult _ _
  | embeddedFailed hembeds hdepth hread hns ih =>
      rw [Context.perform_nodes] at ih
      simp only [Context.perform, Task.run, Node.evaluate,
        hembeds.embedded_eq_outcome hdepth hread ih]
      exact Context.goOn_ofResult _ _
  | nil => exact Context.goOn_idle _
  | cons hn hns ihn ihns =>
      have henv := Context.environment_eq_of_goOn ihn
      rw [Context.perform, henv] at ihns
      exact (Context.goOn_andThen ihn).trans ihns
  | consFailed hn ih => exact Context.goOn_andThen_of_failure ih
  | noTurn => exact Context.goOn_idle _
  | turn hl hls ihl ihls =>
      have henv := Context.environment_eq_of_goOn ihl
      rw [Context.perform, henv] at ihls
      exact (Context.goOn_andThen ihl).trans ihls
  | turnFailed hl ih => exact Context.goOn_andThen_of_failure ih

theorem environment_eq (h : Executes c loops task c' failure log) :
    c'.environment = c.environment :=
  Context.environment_eq_of_goOn h.perform_eq

end Executes

/-- The execution of the task comes to an end. -/
def Ends (c : Context) (loops : List Loop) (task : Task) : Prop :=
  ∃ c' failure log, Executes c loops task c' failure log

namespace Ends

variable {c : Context} {loops : List Loop} {n : Node} {ns body : List Node}

theorem of_takes {condition : Condition} (h : n.Takes c.environment loops condition ns)
    (hns : Ends c loops (.nodes ns)) : Ends c loops (.node n) := by
  obtain ⟨c', failure, log, hns⟩ := hns
  cases failure with
  | none => exact ⟨_, _, _, .part h hns⟩
  | some e => exact ⟨_, _, _, .partFailed h hns⟩

theorem of_goesOn (h : n.GoesOn loops ns) (hns : Ends c loops (.nodes ns)) :
    Ends c loops (.node n) := by
  obtain ⟨c', failure, log, hns⟩ := hns
  exact ⟨_, _, _, .goesOn h hns⟩

theorem block (hbody : Ends c.child loops (.nodes body)) : Ends c loops (.node (.block body)) := by
  obtain ⟨inner, failure, log, hbody⟩ := hbody
  cases failure with
  | some e => exact ⟨_, _, _, .blockFailed hbody⟩
  | none =>
      cases h : inner.enabled with
      | true => exact ⟨_, _, _, .block hbody h⟩
      | false => exact ⟨_, _, _, .blockLeft hbody h⟩

theorem cons (hn : Ends c loops (.node n))
    (hns : ∀ c', c'.environment = c.environment → Ends c' loops (.nodes ns)) :
    Ends c loops (.nodes (n :: ns)) := by
  obtain ⟨c', failure, log, hn⟩ := hn
  cases failure with
  | some e => exact ⟨_, _, _, .consFailed hn⟩
  | none =>
      obtain ⟨d, failure, log', hns⟩ := hns c' hn.environment_eq
      exact ⟨_, _, _, .cons hn hns⟩

theorem turns {ls : List Loop}
    (hbody : ∀ l c', c'.environment = c.environment → Ends c' (l :: loops) (.nodes body)) :
    Ends c loops (.turns ls body) := by
  induction ls generalizing c with
  | nil => exact ⟨_, _, _, .noTurn⟩
  | cons l ls ih =>
      obtain ⟨c', failure, log, hl⟩ := hbody l c rfl
      cases failure with
      | some e => exact ⟨_, _, _, .turnFailed hl⟩
      | none =>
          have henv := hl.environment_eq
          obtain ⟨d, failure, log', hls⟩ := ih fun l c' h => hbody l c' (h.trans henv)
          exact ⟨_, _, _, .turn hl hls⟩

/-- A variable comes to an end if an embedded text does. -/
theorem embedded {v : Variable} {mode : Template.EmbeddedMode}
    (hinner : 0 < c.environment.remainingDepth → ∀ arguments text ns,
      Ends (c.nested arguments text) loops (.nodes ns)) :
    Ends c loops (.node (.embedded v mode)) := by
  have hmem : Node.embedded v mode ∈ [Node.embedded v mode] := List.mem_singleton_self _
  rcases v.embedded_cases mode c.environment loops with ⟨r, text, hembeds, -⟩ | hsame
  · rcases Nat.eq_zero_or_pos c.environment.remainingDepth with hdepth | hdepth
    · exact ⟨_, _, _, .raised (.tooDeep hmem hembeds hdepth)⟩
    · cases hread : readNodes text (!loops.isEmpty) with
      | error e => exact ⟨_, _, _, .raised (.unreadable hmem hembeds hdepth hread)⟩
      | ok ns =>
          obtain ⟨inner, failure, log, hns⟩ := hinner hdepth (embeddedArguments v r) text ns
          cases failure with
          | none => exact ⟨_, _, _, .embedded hembeds hdepth hread hns⟩
          | some e => exact ⟨_, _, _, .embeddedFailed hembeds hdepth hread hns⟩
  · have hall : ∀ embedding, v.embedded embedding mode c.environment loops =
        v.embedded (Template.embedNothing c.environment) mode c.environment loops :=
      fun embedding => hsame embedding _
    cases h : v.embedded (Template.embedNothing c.environment) mode c.environment loops with
    | ok sql => exact ⟨_, _, _, .given (.embedded fun embedding => (hall embedding).trans h)⟩
    | error e =>
        exact ⟨_, _, _, .raised (.embedded hmem fun embedding => (hall embedding).trans h)⟩

end Ends

namespace Template.Node

mutual

/-- A node comes to an end if all embedded texts with fewer levels left do. -/
theorem ends_node {levels : Nat}
    (hinner : ∀ c loops ns, c.environment.remainingDepth < levels → Ends c loops (.nodes ns)) :
    (n : Node) → (c : Context) → (loops : List Loop) →
      c.environment.remainingDepth = levels → Ends c loops (.node n)
  | .text s, _, _, _ => ⟨_, _, _, .text (.text s)⟩
  | .connector word rest, c, _, _ => by
      cases henabled : c.enabled with
      | true => exact ⟨_, _, _, .text (.kept (.inl henabled))⟩
      | false =>
          cases hadjust : c.environment.config.adjustConnector with
          | true => exact ⟨_, _, _, .text (.dropped henabled hadjust)⟩
          | false => exact ⟨_, _, _, .text (.kept (.inr hadjust))⟩
  | .bind v, c, loops, _ => by
      cases h : v.bound c.environment loops with
      | ok sql => exact ⟨_, _, _, .given (.bound h)⟩
      | error e => exact ⟨_, _, _, .raised (.bound (List.mem_singleton_self _) h)⟩
  | .embedded v mode, c, loops, hc => by
      refine .embedded fun hdepth arguments text ns => hinner _ loops ns ?_
      obtain ⟨fewer, hfewer⟩ := Nat.exists_eq_succ_of_ne_zero hdepth.ne'
      have hnested : (c.nested arguments text).environment.remainingDepth = fewer :=
        Environment.remainingDepth_nested hfewer arguments text
      omega
  | .ifBlock condition body otherwise, c, loops, hc => by
      cases h : condition.evaluate c.environment loops with
      | error e => exact ⟨_, _, _, .raised (.condition (List.mem_singleton_self _) h)⟩
      | ok truth =>
          cases truth with
          | true => exact .of_takes (.body h) (ends_nodes hinner body c loops hc)
          | false =>
              cases otherwise with
              | none => exact ⟨_, _, _, .passed (.condition h)⟩
              | some second => exact .of_takes (.otherwise h) (ends_nodes hinner second c loops hc)
  | .forBlock expression path options body, c, loops, hc => by
      cases hr : path.resolve expression c.environment loops with
      | error e => exact ⟨_, _, _, .raised (.source (List.mem_singleton_self _) hr)⟩
      | ok r =>
          by_cases hlist : ∃ elements, r.target = .list elements
          · obtain ⟨elements, htarget⟩ := hlist
            obtain ⟨c', failure, log, hturns⟩ : Ends c loops
                (.turns (Loop.turns ⟨expression, elements, 0, options.like⟩) body) :=
              .turns fun l c' henv => ends_nodes hinner body c' (l :: loops) (henv ▸ hc)
            exact ⟨_, _, _, .loop hr htarget hturns⟩
          · exact ⟨_, _, _, .raised (.notList (List.mem_singleton_self _) hr (not_exists.1 hlist))⟩
  | .block body, c, loops, hc => .block (ends_nodes hinner body c.child loops hc)
  | .first body, c, loops, hc => by
      cases h : loops.head?.any Loop.isFirst with
      | true => exact .of_goesOn (.first h) (ends_nodes hinner body c loops hc)
      | false => exact ⟨_, _, _, .passed (.first h)⟩
  | .last body, c, loops, hc => by
      cases h : loops.head?.any Loop.isLast with
      | true => exact .of_goesOn (.last h) (ends_nodes hinner body c loops hc)
      | false => exact ⟨_, _, _, .passed (.last h)⟩
  | .separator s, c, loops, _ => by
      cases h : loops.head?.any (!·.isFirst) with
      | true => exact ⟨_, _, _, .text (.separator h)⟩
      | false => exact ⟨_, _, _, .passed (.separator h)⟩

/-- The same of nodes that stand one behind the other. -/
theorem ends_nodes {levels : Nat}
    (hinner : ∀ c loops ns, c.environment.remainingDepth < levels → Ends c loops (.nodes ns)) :
    (ns : List Node) → (c : Context) → (loops : List Loop) →
      c.environment.remainingDepth = levels → Ends c loops (.nodes ns)
  | [], _, _, _ => ⟨_, _, _, .nil⟩
  | n :: ns, c, loops, hc =>
      .cons (ends_node hinner n c loops hc) fun c' henv =>
        ends_nodes hinner ns c' loops (henv ▸ hc)

end

end Template.Node

/-- Every execution comes to an end. -/
theorem exists_executes (c : Context) (loops : List Loop) (ns : List Node) :
    Ends c loops (.nodes ns) := by
  -- An embedded text has fewer levels left; all else that is executed is a part of the nodes.
  induction hlevels : c.environment.remainingDepth using Nat.strong_induction_on
    generalizing c loops ns with
  | _ levels ih =>
      refine Node.ends_nodes ?_ ns c loops hlevels
      intro c' loops' ns' hfewer
      exact ih _ hfewer c' loops' ns' rfl

/-- The rules and the evaluation are the same. -/
theorem executes_iff {c c' : Context} {loops : List Loop} {ns : List Node}
    {failure : Option TemplateError} :
    (∃ log, Executes c loops (.nodes ns) c' failure log) ↔
      c.evaluate loops ns = (c', failure) := by
  constructor
  · rintro ⟨log, h⟩
    rw [← Context.perform_nodes]
    exact h.perform_eq
  · intro heval
    obtain ⟨d, failure', log, h⟩ := exists_executes c loops ns
    have hd := h.perform_eq
    rw [Context.perform_nodes, heval] at hd
    cases hd
    exact ⟨log, h⟩

end SqlTemplate
