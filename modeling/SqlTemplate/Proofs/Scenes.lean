import Mathlib
import SqlTemplate.Proofs.Embedding
import SqlTemplate.Proofs.NestedNodes

/-!
# What an evaluation comes to

A scene is some nodes, where they are evaluated and in which loops. From a scene the evaluation
enters others (`Scene.Enters`): a part of a condition, a loop at one of its elements, a block,
or the nodes of an embedded text. An error of an evaluation arises at a node of a scene that is
reached in this way (`exists_raises_of_evaluateNodes`); the ways in which it can arise there
are listed in `Scene.Raises`.

What holds throughout the nodes of a scene goes on to hold from scene to scene, if it holds of what
is read from embedded texts as well (`Scene.Throughout.of_reaches`).
-/

namespace SqlTemplate

namespace Run

theorem failure_ofResult {r : Except TemplateError BoundSql} {enabled : Bool}
    {e : TemplateError} (h : (ofResult r enabled).failure = some e) : r = .error e := by
  cases r with
  | ok sql => cases h
  | error e' =>
      cases h
      rfl

theorem failure_enable (r : Run) : r.enable.failure = r.failure := by
  rw [enable]
  split
  next => rfl
  next => rfl

theorem failure_asBlock {r : Run} {enabled : Bool} {e : TemplateError}
    (h : (r.asBlock enabled).failure = some e) : r.failure = some e := by
  rw [asBlock] at h
  split at h
  next hr =>
    rw [hr]
    exact h
  next =>
    split at h
    next => cases h
    next => cases h

theorem failure_andThen {r : Run} {next : Bool → Run} {e : TemplateError}
    (h : (r.andThen next).failure = some e) :
    r.failure = some e ∨ (next r.enabled).failure = some e := by
  rw [andThen] at h
  split at h
  next => exact .inl h
  next => exact .inr h

theorem exists_failure_of_all {fs : List (Bool → Run)} {enabled : Bool} {e : TemplateError}
    (h : (all fs enabled).failure = some e) : ∃ f ∈ fs, ∃ b, (f b).failure = some e := by
  induction fs generalizing enabled with
  | nil => cases h
  | cons f fs ih =>
      rcases failure_andThen h with h | h
      · exact ⟨f, List.mem_cons_self, enabled, h⟩
      · obtain ⟨g, hg, b, h⟩ := ih h
        exact ⟨g, List.mem_cons_of_mem f hg, b, h⟩

theorem toResult_eq_error_iff {r : Run} {e : TemplateError} :
    r.toResult = .error e ↔ r.failure = some e := by
  rw [toResult]
  cases r.failure with
  | none => simp
  | some e' => simp

theorem toResult_eq_ok_iff {r : Run} {added : BoundSql} :
    r.toResult = .ok added ↔ r.failure = none ∧ r.added = added := by
  rw [toResult]
  cases r.failure with
  | none => simp
  | some e => simp

end Run

namespace Template.Variable

/-- The variable stands for a text that is a template of its own. -/
def Embeds (v : Variable) (env : Environment) (loops : List Loop) (r : Resolved)
    (text : String) : Prop :=
  v.resolve env loops = .ok r ∧ v.embedsText r = true ∧ r.target = .string text

/-- What becomes of embedded text is all that counts, or it does not count at all. -/
theorem embedded_cases (v : Variable) (mode : EmbeddedMode) (env : Environment)
    (loops : List Loop) :
    (∃ r text, v.Embeds env loops r text ∧
      ∀ embedding, v.embedded embedding mode env loops = embedding loops v r text) ∨
    ∀ embedding embedding',
      v.embedded embedding mode env loops = v.embedded embedding' mode env loops := by
  cases hr : v.resolve env loops with
  | error e =>
      right
      intro embedding embedding'
      rw [embedded, embedded, hr]
      rfl
  | ok r =>
      cases hscope : v.inScope with
      | true =>
          right
          intro embedding embedding'
          simp [embedded, hr, hscope, bind, Except.bind]
      | false =>
          cases htarget : scalar r.target with
          | error kind =>
              right
              intro embedding embedding'
              simp [embedded, hr, hscope, htarget, bind, Except.bind, Except.mapError]
          | ok w =>
              have hw := eq_of_scalar_eq_ok htarget
              cases hfilter : w.asString?.filter hasComment with
              | none =>
                  right
                  intro embedding embedding'
                  simp [embedded, hr, hscope, htarget, hfilter, bind, Except.bind,
                    Except.mapError]
              | some text =>
                  left
                  obtain ⟨hstring, hcomment⟩ := Option.filter_eq_some_iff.1 hfilter
                  have hembeds : v.embedsText r = true := by
                    rw [embedsText, hscope, ← hw, hstring]
                    exact hcomment
                  have htext : r.target = .string text := by
                    rw [← hw]
                    exact (Value.asString?_eq_some_iff w).1 hstring
                  refine ⟨r, text, ⟨hr, hembeds, htext⟩, ?_⟩
                  intro embedding
                  simp [embedded, hr, hscope, htarget, hfilter, bind, Except.bind,
                    Except.mapError]

end Template.Variable

open Template (Node Variable EmbeddedMode readNodes embeddedArguments)

theorem Environment.remainingDepth_nested {env : Environment} {levels : Nat}
    (h : env.remainingDepth = levels + 1) (arguments : Arguments) (text : String) :
    (env.nested arguments text).remainingDepth = levels := by
  rw [remainingDepth] at h ⊢
  dsimp only [nested]
  omega

/-- Nodes, where they are evaluated, and in which loops. -/
structure Scene where
  environment : Environment
  loops : List Loop
  nodes : List Node

namespace Scene

/-- The evaluation of the one scene comes to the other in one step. -/
inductive Enters : Scene → Scene → Prop where
  | taken {env loops ns condition body otherwise}
      (hmem : Node.ifBlock condition body otherwise ∈ ns)
      (htruth : condition.evaluate env loops = .ok true) :
      Enters ⟨env, loops, ns⟩ ⟨env, loops, body⟩
  | otherwise {env loops ns condition body second}
      (hmem : Node.ifBlock condition body (some second) ∈ ns)
      (htruth : condition.evaluate env loops = .ok false) :
      Enters ⟨env, loops, ns⟩ ⟨env, loops, second⟩
  | turn {env loops ns expression path options body r elements turn}
      (hmem : Node.forBlock expression path options body ∈ ns)
      (hr : path.resolve expression env loops = .ok r) (helements : r.target = .list elements)
      (hturn : turn ∈ Loop.turns ⟨expression, elements, 0, options.like⟩) :
      Enters ⟨env, loops, ns⟩ ⟨env, turn :: loops, body⟩
  | block {env loops ns body} (hmem : Node.block body ∈ ns) :
      Enters ⟨env, loops, ns⟩ ⟨env, loops, body⟩
  | first {env loops ns body} (hmem : Node.first body ∈ ns)
      (hfirst : loops.head?.any Loop.isFirst = true) :
      Enters ⟨env, loops, ns⟩ ⟨env, loops, body⟩
  | last {env loops ns body} (hmem : Node.last body ∈ ns)
      (hlast : loops.head?.any Loop.isLast = true) :
      Enters ⟨env, loops, ns⟩ ⟨env, loops, body⟩
  | text {env loops ns v mode r text inner} (hmem : Node.embedded v mode ∈ ns)
      (hembeds : v.Embeds env loops r text) (hdepth : 0 < env.remainingDepth)
      (hread : readNodes text (!loops.isEmpty) = .ok inner) :
      Enters ⟨env, loops, ns⟩ ⟨env.nested (embeddedArguments v r) text, loops, inner⟩

/-- The evaluation of the one scene comes to the other. -/
def Reaches : Scene → Scene → Prop :=
  Relation.ReflTransGen Enters

/-- The error arises at one of the nodes, not in what is entered from there. -/
inductive Raises : Scene → TemplateError → Prop where
  | bound {env loops ns v e} (hmem : Node.bind v ∈ ns) (h : v.bound env loops = .error e) :
      Raises ⟨env, loops, ns⟩ e
  | embedded {env loops ns v mode e} (hmem : Node.embedded v mode ∈ ns)
      (h : ∀ embedding, v.embedded embedding mode env loops = .error e) :
      Raises ⟨env, loops, ns⟩ e
  | tooDeep {env loops ns v mode r text} (hmem : Node.embedded v mode ∈ ns)
      (hembeds : v.Embeds env loops r text) (hdepth : env.remainingDepth = 0) :
      Raises ⟨env, loops, ns⟩ (v.fail env (.dynamicDepthExceeded env.config.maxDynamicDepth))
  | unreadable {env loops ns v mode r text e} (hmem : Node.embedded v mode ∈ ns)
      (hembeds : v.Embeds env loops r text) (hdepth : 0 < env.remainingDepth)
      (hread : readNodes text (!loops.isEmpty) = .error e) : Raises ⟨env, loops, ns⟩ e
  | condition {env loops ns condition body otherwise e}
      (hmem : Node.ifBlock condition body otherwise ∈ ns)
      (h : condition.evaluate env loops = .error e) : Raises ⟨env, loops, ns⟩ e
  | source {env loops ns expression path options body e}
      (hmem : Node.forBlock expression path options body ∈ ns)
      (h : path.resolve expression env loops = .error e) : Raises ⟨env, loops, ns⟩ e
  | notList {env loops ns expression path options body r}
      (hmem : Node.forBlock expression path options body ∈ ns)
      (hr : path.resolve expression env loops = .ok r)
      (hlist : ∀ elements, r.target ≠ .list elements) :
      Raises ⟨env, loops, ns⟩
        (env.error (.forSourceNotList r.target.typeLabel) expression)

/-- The error arises in a scene that is reached. -/
def FailsWith (scene : Scene) (e : TemplateError) : Prop :=
  ∃ reached, scene.Reaches reached ∧ reached.Raises e

theorem Raises.failsWith {scene : Scene} {e : TemplateError} (h : scene.Raises e) :
    scene.FailsWith e :=
  ⟨scene, .refl, h⟩

theorem FailsWith.of_enters {scene inner : Scene} {e : TemplateError} (h : inner.FailsWith e)
    (hstep : scene.Enters inner) : scene.FailsWith e := by
  obtain ⟨reached, hreaches, hraises⟩ := h
  exact ⟨reached, .head hstep hreaches, hraises⟩

/-- An error of an embedded text arises in a scene that is reached from where it is embedded. -/
def Locates (env : Environment) (embedding : Variable.Embedding) : Prop :=
  ∀ {loops ns v mode r text e}, Node.embedded v mode ∈ ns → v.Embeds env loops r text →
    embedding loops v r text = .error e → FailsWith ⟨env, loops, ns⟩ e

/-- The nodes have the property throughout. It may depend on the text that is evaluated. -/
def Throughout (P : String → Bool → Node → Prop) (scene : Scene) : Prop :=
  ∀ n ∈ scene.nodes, n.Throughout (P scene.environment.template) !scene.loops.isEmpty

/-- If a node with the property embeds a text, what is read from the text has it throughout. -/
def PassesToTexts (P : String → Bool → Node → Prop) : Prop :=
  ∀ ⦃source inLoop v mode text ns⦄, P source inLoop (.embedded v mode) →
    readNodes text inLoop = .ok ns → ∀ n ∈ ns, n.Throughout (P text) inLoop

/-- The evaluation enters a part of a node, in a loop if that is what the node is, or an embedded
text. -/
theorem Enters.part_or_text {scene inner : Scene} (h : scene.Enters inner) :
    (∃ n ∈ scene.nodes, inner.nodes ∈ n.parts ∧ inner.environment = scene.environment ∧
      (!inner.loops.isEmpty) = (!scene.loops.isEmpty || n.isLoop)) ∨
    ∃ v mode r text, .embedded v mode ∈ scene.nodes ∧
      v.Embeds scene.environment scene.loops r text ∧
      readNodes text (!scene.loops.isEmpty) = .ok inner.nodes ∧ inner.loops = scene.loops ∧
      inner.environment = scene.environment.nested (embeddedArguments v r) text := by
  cases h with
  | taken hmem | block hmem | first hmem | last hmem =>
      exact .inl ⟨_, hmem, List.mem_cons_self, rfl, (Bool.or_false _).symm⟩
  | otherwise hmem =>
      refine .inl ⟨_, hmem, ?_, rfl, (Bool.or_false _).symm⟩
      exact List.mem_cons_of_mem _ (Option.mem_toList.2 rfl)
  | turn hmem => exact .inl ⟨_, hmem, List.mem_cons_self, rfl, (Bool.or_true _).symm⟩
  | text hmem hembeds _ hread => exact .inr ⟨_, _, _, _, hmem, hembeds, hread, rfl, rfl⟩

theorem Throughout.of_enters {P : String → Bool → Node → Prop} {scene inner : Scene}
    (h : scene.Throughout P) (hP : PassesToTexts P) (hstep : scene.Enters inner) :
    inner.Throughout P := by
  rcases hstep.part_or_text with
    ⟨n, hn, hpart, henv, hloops⟩ | ⟨v, mode, r, text, hmem, -, hread, hloops, henv⟩
  · rw [Throughout, henv, hloops]
    exact (h n hn).parts hpart
  · rw [Throughout, henv, hloops]
    exact hP (h _ hmem).self hread

/-- What holds throughout one scene holds throughout all that is reached from it. -/
theorem Throughout.of_reaches {P : String → Bool → Node → Prop} {scene reached : Scene}
    (h : scene.Throughout P) (hP : PassesToTexts P) (hreaches : scene.Reaches reached) :
    reached.Throughout P := by
  induction hreaches with
  | refl => exact h
  | tail _ hstep ih => exact ih.of_enters hP hstep

end Scene

namespace Template.Node

variable {embedding : Variable.Embedding} {env : Environment}

mutual

/-- The error of a node arises in a scene that is reached from any nodes it is one of. -/
theorem failsWith_evaluate (hembedding : Scene.Locates env embedding)
    {loops : List Loop} {enabled : Bool} {e : TemplateError} {ns : List Node} :
    (n : Node) → n ∈ ns → (n.evaluate embedding env loops enabled).failure = some e →
      Scene.FailsWith ⟨env, loops, ns⟩ e
  | .text s, _, h => nomatch h
  | .connector word rest, _, h => by
      rw [evaluate] at h
      split at h <;> cases h
  | .bind v, hmem, h => (Scene.Raises.bound hmem (Run.failure_ofResult h)).failsWith
  | .embedded v mode, hmem, h => by
      have h := Run.failure_ofResult h
      -- The error is that of the embedded text, or it does not depend on what embeds it.
      rcases v.embedded_cases mode env loops with ⟨r, text, hembeds, hall⟩ | hall
      · rw [hall] at h
        exact hembedding hmem hembeds h
      · refine (Scene.Raises.embedded hmem ?_).failsWith
        intro embedding'
        rw [hall embedding' embedding, h]
  | .ifBlock condition body otherwise, hmem, h => by
      rw [evaluate] at h
      split at h
      next e' hcondition =>
        cases h
        exact (Scene.Raises.condition hmem hcondition).failsWith
      next htruth =>
        rw [Run.failure_enable] at h
        exact (failsWith_evaluateAll hembedding body (List.Subset.refl body) h).of_enters
          (.taken hmem htruth)
      next htruth =>
        obtain ⟨second, rfl, hsecond⟩ := failsWith_evaluateOption hembedding otherwise h
        exact hsecond.of_enters (.otherwise hmem htruth)
  | .forBlock expression path options body, hmem, h => by
      rw [evaluate] at h
      split at h
      next e' hr =>
        cases h
        exact (Scene.Raises.source hmem hr).failsWith
      next r hr =>
        split at h
        next elements helements =>
          obtain ⟨f, hf, b, h⟩ := Run.exists_failure_of_all h
          obtain ⟨turn, hturn, rfl⟩ := List.mem_map.1 hf
          exact (failsWith_evaluateAll hembedding body (List.Subset.refl body) h).of_enters
            (.turn hmem hr helements hturn)
        next hlist =>
          cases h
          exact (Scene.Raises.notList hmem hr hlist).failsWith
  | .block body, hmem, h =>
      (failsWith_evaluateAll hembedding body (List.Subset.refl body)
        (Run.failure_asBlock h)).of_enters (.block hmem)
  | .first body, hmem, h => by
      rw [evaluate] at h
      split at h
      next hfirst =>
        exact (failsWith_evaluateAll hembedding body (List.Subset.refl body) h).of_enters
          (.first hmem hfirst)
      next => cases h
  | .last body, hmem, h => by
      rw [evaluate] at h
      split at h
      next hlast =>
        exact (failsWith_evaluateAll hembedding body (List.Subset.refl body) h).of_enters
          (.last hmem hlast)
      next => cases h
  | .separator s, _, h => by
      rw [evaluate] at h
      split at h <;> cases h

/-- The same of nodes that stand one behind the other. -/
theorem failsWith_evaluateAll (hembedding : Scene.Locates env embedding)
    {loops : List Loop} {enabled : Bool} {e : TemplateError} {ns : List Node} :
    (ms : List Node) → ms ⊆ ns →
      (evaluateAll embedding env loops enabled ms).failure = some e →
      Scene.FailsWith ⟨env, loops, ns⟩ e
  | [], _, h => nomatch h
  | m :: ms, hsub, h => by
      obtain ⟨hm, hms⟩ := List.cons_subset.1 hsub
      rcases Run.failure_andThen h with h | h
      · exact failsWith_evaluate hembedding m hm h
      · exact failsWith_evaluateAll hembedding ms hms h

/-- The same of the second part of a condition. -/
theorem failsWith_evaluateOption (hembedding : Scene.Locates env embedding)
    {loops : List Loop} {enabled : Bool} {e : TemplateError} :
    (otherwise : Option (List Node)) →
      (evaluateOption embedding env loops enabled otherwise).failure = some e →
      ∃ second, otherwise = some second ∧ Scene.FailsWith ⟨env, loops, second⟩ e
  | none, h => nomatch h
  | some second, h => by
      rw [evaluateOption, Run.failure_enable] at h
      exact ⟨second, rfl, failsWith_evaluateAll hembedding second (List.Subset.refl second) h⟩

end

end Template.Node

namespace Template

theorem failsWith_of_evaluateWithin {levels : Nat} {env : Environment} {loops : List Loop}
    {enabled : Bool} {ns : List Node} {e : TemplateError} (hlevels : env.remainingDepth = levels)
    (h : (evaluateWithin levels env loops enabled ns).failure = some e) :
    Scene.FailsWith ⟨env, loops, ns⟩ e := by
  -- An embedded text is evaluated with one level less, in an environment of its own.
  induction levels generalizing env loops enabled ns e with
  | zero =>
      refine Node.failsWith_evaluateAll ?_ ns (List.Subset.refl ns) h
      intro loops ns v mode r text e hmem hembeds h
      cases h
      exact (Scene.Raises.tooDeep hmem hembeds hlevels).failsWith
  | succ levels ih =>
      refine Node.failsWith_evaluateAll ?_ ns (List.Subset.refl ns) h
      intro loops ns v mode r text e hmem hembeds h
      have hdepth : 0 < env.remainingDepth := by omega
      rcases Except.bind_eq_error_iff.1 h with hread | ⟨inner, hread, h⟩
      · exact (Scene.Raises.unreadable hmem hembeds hdepth hread).failsWith
      · have hnested : (env.nested (embeddedArguments v r) text).remainingDepth = levels :=
          Environment.remainingDepth_nested hlevels _ text
        have hinner := ih hnested (Run.toResult_eq_error_iff.1 h)
        exact hinner.of_enters (.text hmem hembeds hdepth hread)

/-- The error of an evaluation arises at a node of a scene that is reached. -/
theorem exists_raises_of_evaluateNodes {env : Environment} {loops : List Loop}
    {enabled : Bool} {ns : List Node} {e : TemplateError}
    (h : (evaluateNodes env loops enabled ns).failure = some e) :
    ∃ scene, Scene.Reaches ⟨env, loops, ns⟩ scene ∧ scene.Raises e :=
  failsWith_of_evaluateWithin rfl h

/-- The scene at which the evaluation of the template begins. -/
def scene (t : Template) (arguments : Arguments) (config : Config) : Scene :=
  ⟨⟨arguments, config, t.source, 0⟩, [], t.nodes⟩

end Template

end SqlTemplate
