import SqlTemplate.Proofs.NodeTrace

/-!
# What a test value decides

A test value makes a template run as plain SQL. For the values that the template gives, it says
two things: whether a list is expected, and, of an embedded value, whether there are quotes around
it. Nodes in which every test value is replaced by one that says the same
(`Node.canonicalTests`) are evaluated as before (`evaluateNodes_canonicalTests`).
-/

namespace SqlTemplate.Template

namespace Variable

/-- Whether a list is expected where the test value stands. -/
def expectsList (test : List Char) : Bool :=
  (Text.trimStart test).head? == some '('

/-- Whether an embedded value is quoted where the test value stands: this one is, or the first
element of its list. -/
def expectsQuotes (test : List Char) : Bool :=
  if expectsList test then (firstElement? test).any isQuoted else isQuoted test

/-- The shortest test value that expects a list or not, and quotes or not. -/
def shortestTest (list quotes : Bool) : String :=
  match list, quotes with
  | true, true => "(''"
  | true, false => "("
  | false, true => "''"
  | false, false => ""

/-- The variable, bound, with the shortest test value that decides the same. -/
def canonicalBound (v : Variable) : Variable :=
  { v with testValue := shortestTest (expectsList v.testValue.toList) false }

/-- The variable, embedded, with the shortest test value that decides the same. -/
def canonicalEmbedded (v : Variable) : Variable :=
  { v with testValue :=
      shortestTest (expectsList v.testValue.toList) (expectsQuotes v.testValue.toList) }

theorem expectsList_shortestTest (list quotes : Bool) :
    expectsList (shortestTest list quotes).toList = list := by
  cases list <;> cases quotes <;> decide

theorem expectsQuotes_shortestTest (list quotes : Bool) :
    expectsQuotes (shortestTest list quotes).toList = quotes := by
  cases list <;> cases quotes <;> decide

/-- What becomes of embedded text does not depend on the test value. -/
def Embedding.IgnoresTests (embedding : Embedding) : Prop :=
  ∀ loops (v : Variable) test r text,
    embedding loops { v with testValue := test } r text = embedding loops v r text

theorem inScope_eq (v : Variable) : v.inScope = expectsList v.testValue.toList :=
  rfl

theorem bound_canonicalBound (v : Variable) (env : Environment) (loops : List Loop) :
    v.canonicalBound.bound env loops = v.bound env loops := by
  rw [bound, bound, inScope_eq, inScope_eq, canonicalBound, expectsList_shortestTest]
  rfl

/-- What an embedded variable gives, by what its test value decides. -/
theorem embedded_eq (embedding : Embedding) (v : Variable) (mode : EmbeddedMode)
    (env : Environment) (loops : List Loop) :
    v.embedded embedding mode env loops = (do
      let r ← v.resolve env loops
      if expectsList v.testValue.toList then
        let present ← (elements r.target).mapError (v.fail env)
        let quoted := mode != .replaceOnly && expectsQuotes v.testValue.toList
        let parts ← (present.mapM (embeddedText quoted)).mapError (v.fail env)
        return .ofSql (BoundSql.listed parts)
      else
        let w ← (scalar r.target).mapError (v.fail env)
        match w.asString?.filter hasComment with
        | some text => embedding loops v r text
        | none =>
          let quoted := mode == .normal && expectsQuotes v.testValue.toList
          let s ← (embeddedText quoted w).mapError (v.fail env)
          return withRear (.ofSql s) r env) := by
  rw [embedded, expectsQuotes, inScope_eq]
  cases expectsList v.testValue.toList <;> rfl

theorem embedded_canonicalEmbedded {embedding : Embedding} (h : embedding.IgnoresTests)
    (v : Variable) (mode : EmbeddedMode) (env : Environment) (loops : List Loop) :
    v.canonicalEmbedded.embedded embedding mode env loops =
      v.embedded embedding mode env loops := by
  have hembedding : ∀ r text, embedding loops v.canonicalEmbedded r text =
      embedding loops v r text := h loops v _
  have hlist : expectsList v.canonicalEmbedded.testValue.toList =
      expectsList v.testValue.toList := expectsList_shortestTest _ _
  have hquotes : expectsQuotes v.canonicalEmbedded.testValue.toList =
      expectsQuotes v.testValue.toList := expectsQuotes_shortestTest _ _
  rw [embedded_eq, embedded_eq, hlist, hquotes]
  simp only [hembedding]
  rfl

end Variable

namespace Node

mutual

/-- The node with the shortest test values that decide the same. -/
def canonicalTests : Node → Node
  | .text s => .text s
  | .connector word rest => .connector word rest
  | .bind v => .bind v.canonicalBound
  | .embedded v mode => .embedded v.canonicalEmbedded mode
  | .ifBlock condition body otherwise =>
    .ifBlock condition (canonicalTestsAll body) (canonicalTestsOption otherwise)
  | .forBlock expression path options body =>
    .forBlock expression path options (canonicalTestsAll body)
  | .block body => .block (canonicalTestsAll body)
  | .first body => .first (canonicalTestsAll body)
  | .last body => .last (canonicalTestsAll body)
  | .separator s => .separator s

def canonicalTestsAll : List Node → List Node
  | [] => []
  | n :: ns => canonicalTests n :: canonicalTestsAll ns

def canonicalTestsOption : Option (List Node) → Option (List Node)
  | none => none
  | some ns => some (canonicalTestsAll ns)

end

/-- A connector is set apart from the same texts. -/
theorem canonicalTestsAll_adjustConnector (ns : List Node) :
    canonicalTestsAll (adjustConnector ns) = adjustConnector (canonicalTestsAll ns) := by
  cases ns with
  | nil => rfl
  | cons n ns =>
      cases n with
      | text s =>
          rw [canonicalTestsAll, canonicalTests, adjustConnector, adjustConnector]
          split <;> rfl
      | _ => rfl

theorem canonicalTestsOption_map_adjustConnector (otherwise : Option (List Node)) :
    canonicalTestsOption (otherwise.map adjustConnector) =
      (canonicalTestsOption otherwise).map adjustConnector := by
  cases otherwise with
  | none => rfl
  | some ns => exact congrArg some (canonicalTestsAll_adjustConnector ns)

section Evaluation

variable {embedding : Variable.Embedding}

mutual

/-- A node is evaluated as before where its test values are replaced. -/
theorem evaluate_canonicalTests (h : embedding.IgnoresTests) (env : Environment)
    (loops : List Loop) (enabled : Bool) (n : Node) :
    n.canonicalTests.evaluate embedding env loops enabled =
      n.evaluate embedding env loops enabled := by
  match n with
  | .text s => rfl
  | .connector word rest => rfl
  | .bind v => rw [canonicalTests, evaluate, evaluate, Variable.bound_canonicalBound]
  | .embedded v mode =>
      rw [canonicalTests, evaluate, evaluate, Variable.embedded_canonicalEmbedded h]
  | .ifBlock condition body otherwise =>
      rw [canonicalTests, evaluate, evaluate, evaluateAll_canonicalTests h env loops enabled body,
        evaluateOption_canonicalTests h env loops enabled otherwise]
  | .forBlock expression path options body =>
      have hbody : ∀ turn b,
          evaluateAll embedding env (turn :: loops) b (canonicalTestsAll body) =
            evaluateAll embedding env (turn :: loops) b body :=
        fun turn b => evaluateAll_canonicalTests h env (turn :: loops) b body
      rw [canonicalTests, evaluate, evaluate]
      simp only [hbody]
  | .block body =>
      rw [canonicalTests, evaluate, evaluate, evaluateAll_canonicalTests h env loops false body]
  | .first body | .last body =>
      rw [canonicalTests, evaluate, evaluate, evaluateAll_canonicalTests h env loops enabled body]
  | .separator s => rfl

/-- The same of nodes that stand one behind the other. -/
theorem evaluateAll_canonicalTests (h : embedding.IgnoresTests) (env : Environment)
    (loops : List Loop) (enabled : Bool) (ns : List Node) :
    evaluateAll embedding env loops enabled (canonicalTestsAll ns) =
      evaluateAll embedding env loops enabled ns := by
  match ns with
  | [] => rfl
  | n :: ns =>
      have hns : ∀ b, evaluateAll embedding env loops b (canonicalTestsAll ns) =
          evaluateAll embedding env loops b ns :=
        fun b => evaluateAll_canonicalTests h env loops b ns
      rw [canonicalTestsAll, evaluateAll, evaluateAll,
        evaluate_canonicalTests h env loops enabled n]
      simp only [hns]

/-- The same of the second part of a condition. -/
theorem evaluateOption_canonicalTests (h : embedding.IgnoresTests) (env : Environment)
    (loops : List Loop) (enabled : Bool) (otherwise : Option (List Node)) :
    evaluateOption embedding env loops enabled (canonicalTestsOption otherwise) =
      evaluateOption embedding env loops enabled otherwise := by
  match otherwise with
  | none => rfl
  | some ns =>
      rw [canonicalTestsOption, evaluateOption, evaluateOption,
        evaluateAll_canonicalTests h env loops enabled ns]

end

end Evaluation

end Node

theorem ignoresTests_embedding (levels : Nat) (env : Environment) :
    (embedding levels env).IgnoresTests := by
  intro loops v test r text
  cases levels with
  | zero => rfl
  | succ levels => rfl

/-- Nodes are evaluated as before where their test values are replaced. -/
theorem evaluateNodes_canonicalTests (env : Environment) (loops : List Loop) (enabled : Bool)
    (ns : List Node) :
    evaluateNodes env loops enabled (Node.canonicalTestsAll ns) =
      evaluateNodes env loops enabled ns := by
  rw [evaluateNodes, evaluateNodes, evaluateWithin_eq_evaluateAll, evaluateWithin_eq_evaluateAll]
  exact Node.evaluateAll_canonicalTests (ignoresTests_embedding _ env) env loops enabled ns

end SqlTemplate.Template
