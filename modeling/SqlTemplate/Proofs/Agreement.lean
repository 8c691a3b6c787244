import Mathlib
import SqlTemplate.Proofs.Simulation

/-!
# What an evaluation depends on

A template looks at the arguments that it mentions and at no others. Two environments that
agree on these are told apart by nothing but the errors: an error names the text that is
evaluated and shows its arguments (`ErrorsAlike.outside`). An embedded text has the argument at
the start of its path as its only one, so an error in it is the same in both environments
(`ErrorsAlike.inside`).

So two environments that agree on some arguments follow each other on these, with errors that are
alike (`Environment.Agrees.follows`), and a template that mentions no others gives the same in both
(`evaluate_of_agreesOn`).
-/

namespace SqlTemplate

/-- The arguments with the given names are there or not, and have the same values and the same
declared types. -/
def Arguments.AgreesOn (names : List String) (a b : Arguments) : Prop :=
  ∀ name ∈ names,
    a.values.get? name = b.values.get? name ∧ a.types.get? name = b.types.get? name

namespace Environment

/-- Two environments that differ in nothing but the text and arguments without the given
names. -/
structure Agrees (names : List String) (env env' : Environment) : Prop where
  arguments : env.arguments.AgreesOn names env'.arguments
  config : env.config = env'.config
  depth : env.depth = env'.depth

variable {env env' : Environment}

theorem Agrees.of_subset {names some : List String} (h : Agrees names env env')
    (hsome : some ⊆ names) : Agrees some env env' :=
  ⟨fun name hname => h.arguments name (hsome hname), h.config, h.depth⟩

theorem Agrees.nested_eq {names : List String} (h : Agrees names env env')
    (arguments : Arguments) (text : String) :
    env.nested arguments text = env'.nested arguments text := by
  rw [nested, nested, h.config, h.depth]

end Environment

/-- Two errors that are the same, or that differ in nothing but the text and the arguments of
the environments. -/
inductive ErrorsAlike (env env' : Environment) : TemplateError → TemplateError → Prop where
  | inside (e : TemplateError) : ErrorsAlike env env' e e
  | outside (kind : ErrorKind) (expression : String) (clause : Option String) :
      ErrorsAlike env env'
        ⟨kind, expression, clause, env.template, env.arguments.text⟩
        ⟨kind, expression, clause, env'.template, env'.arguments.text⟩

namespace ErrorsAlike

variable {env env' : Environment} {e e' : TemplateError}

theorem same (h : ErrorsAlike env env' e e') :
    e'.kind = e.kind ∧ e'.expression = e.expression ∧ e'.clause = e.clause := by
  cases h with
  | inside => exact ⟨rfl, rfl, rfl⟩
  | outside => exact ⟨rfl, rfl, rfl⟩

theorem template_eq (h : ErrorsAlike env env' e e') (htemplate : env'.template = env.template) :
    e'.template = e.template := by
  cases h with
  | inside => rfl
  | outside => exact htemplate

/-- Errors that differ name the texts and show the arguments of the environments. -/
theorem named (h : ErrorsAlike env env' e e') (hne : e ≠ e') :
    (e.template = env.template ∧ e'.template = env'.template) ∧
      e.parameters = env.arguments.text ∧ e'.parameters = env'.arguments.text := by
  cases h with
  | inside => exact absurd rfl hne
  | outside => exact ⟨⟨rfl, rfl⟩, rfl, rfl⟩

end ErrorsAlike

/-- The errors of two environments are alike, and none is excused. -/
def ErrorRelation.alike (env env' : Environment) : ErrorRelation where
  Alike := ErrorsAlike env env'
  Excused _ := False
  refl := .inside
  withClause clause h := by
    cases h with
    | inside e => exact .inside _
    | outside kind expression => exact .outside kind expression (some clause)

section Paths

variable {env env' : Environment} {loops : List Loop}

theorem Path.follow_eq_of_agrees {p : Path} (h : env.Agrees p.argument?.toList env') :
    p.follow env loops = p.follow env' loops := by
  have hroot : p.root.resolve env loops = p.root.resolve env' loops := by
    cases hp : p.root with
    | loop => rfl
    | argument name =>
        have hname : name ∈ p.argument?.toList := by simp [argument?, hp]
        obtain ⟨hvalue, htype⟩ := h.arguments name hname
        rw [PathRoot.resolve, PathRoot.resolve, hvalue]
        simp only [Arguments.typeOf, htype]
  rw [follow, follow, hroot]

theorem Path.resultsMatch_resolve {p : Path} (h : env.Agrees p.argument?.toList env')
    (expression : String) :
    ResultsMatch (.alike env env') (p.resolve expression env loops)
      (p.resolve expression env' loops) := by
  rw [resolve, resolve, follow_eq_of_agrees h]
  cases p.follow env' loops with
  | error kind => exact .error (.outside kind expression none)
  | ok r => exact .ok r

theorem Template.Variable.resultsMatch_resolve {v : Variable}
    (h : env.Agrees v.path.argument?.toList env') :
    ResultsMatch (.alike env env') (v.resolve env loops) (v.resolve env' loops) := by
  refine (Path.resultsMatch_resolve h v.expression).bind fun r => ?_
  rw [h.config]
  dsimp only
  split
  next => exact .error (.outside .nullBlocked v.expression none)
  next => exact .ok _

/-- Environments that agree on some arguments follow each other on these. -/
theorem Environment.Agrees.follows {names : List String} (h : env.Agrees names env') :
    env.Follows (.alike env env') {name | name ∈ names} env' where
  likeEscape := congrArg Config.likeEscape h.config.symm
  adjustConnector := congrArg Config.adjustConnector h.config.symm
  error kind expression := .inl (.outside kind expression none)
  path p expression loops hnames := by
    refine Path.resultsMatch_resolve (h.of_subset ?_) expression
    exact fun name hname => hnames name (Option.mem_toList.1 hname)
  resolve v loops hnames := by
    refine Template.Variable.resultsMatch_resolve (h.of_subset ?_)
    exact fun name hname => hnames name (Option.mem_toList.1 hname)

end Paths

namespace Template

/-- Embedded text is evaluated in environments that are the same. -/
theorem embeddingsMatch_of_agrees {names : List String} {env env' : Environment}
    (h : env.Agrees names env') (levels : Nat) :
    EmbeddingsMatch (.alike env env') (embedding levels env) (embedding levels env') := by
  intro loops v r text
  cases levels with
  | zero =>
      rw [embedding, embedding, embedNothing, embedNothing, h.config]
      exact .error (.outside _ v.expression none)
  | succ levels =>
      rw [embedding, embedding, embedText, embedText, h.nested_eq]
      exact .refl _

theorem nodup_eraseDups (names : List String) : names.eraseDups.Nodup := by
  induction hlength : names.length using Nat.strong_induction_on generalizing names with
  | _ length ih =>
      cases names with
      | nil => simp
      | cons name names =>
          have hshorter : (names.filter fun other => !other == name).length < length := by
            rw [← hlength, List.length_cons]
            exact Nat.lt_succ_of_le (List.length_filter_le _ names)
          rw [List.eraseDups_cons, List.nodup_cons]
          refine ⟨?_, ih _ hshorter _ rfl⟩
          rw [List.mem_eraseDups, List.mem_filter]
          simp

theorem nodup_arguments (t : Template) : t.arguments.Nodup :=
  nodup_eraseDups (Node.mentionsAll t.nodes)

/-- Whether the evaluation fails in an embedded text. An error outside of embedded texts names
the text of the template, so it would be another one if the text were. -/
def FailsInside (t : Template) (arguments : Arguments) (config : Config) : Prop :=
  ∃ e, ∀ source, evaluate ⟨source, t.nodes⟩ arguments config = .error e

theorem resultsMatch_evaluate {t : Template} {a b : Arguments} (h : a.AgreesOn t.arguments b)
    (config : Config) (source source' : String) :
    ResultsMatch (.alike ⟨a, config, source, 0⟩ ⟨b, config, source', 0⟩)
      (evaluate ⟨source, t.nodes⟩ a config) (evaluate ⟨source', t.nodes⟩ b config) := by
  have hagrees : Environment.Agrees (Node.mentionsAll t.nodes) ⟨a, config, source, 0⟩
      ⟨b, config, source', 0⟩ :=
    ⟨fun name hname => h name (List.mem_eraseDups.2 hname), rfl, rfl⟩
  have hembedding := embeddingsMatch_of_agrees hagrees config.maxDynamicDepth
  exact (runsMatch_evaluateWithin hagrees.follows hembedding [] true fun _ => id).toResult

/-- Where one evaluation fails so does the other one, and the errors are alike. -/
theorem exists_error_of_agreesOn {t : Template} {a b : Arguments} (h : a.AgreesOn t.arguments b)
    {config : Config} {source : String} {e : TemplateError}
    (he : evaluate ⟨source, t.nodes⟩ a config = .error e) (source' : String) :
    ∃ e', evaluate ⟨source', t.nodes⟩ b config = .error e' ∧
      ErrorsAlike ⟨a, config, source, 0⟩ ⟨b, config, source', 0⟩ e e' :=
  (resultsMatch_evaluate h config source source').exists_error (fun _ h => h) he

theorem errorsAlike_of_agreesOn {t : Template} {a b : Arguments} (h : a.AgreesOn t.arguments b)
    {config : Config} {source source' : String} {e e' : TemplateError}
    (he : evaluate ⟨source, t.nodes⟩ a config = .error e)
    (he' : evaluate ⟨source', t.nodes⟩ b config = .error e') :
    ErrorsAlike ⟨a, config, source, 0⟩ ⟨b, config, source', 0⟩ e e' := by
  obtain ⟨e₁, he₁, halike⟩ := exists_error_of_agreesOn h he source'
  cases he'.symm.trans he₁
  exact halike

section Failures

variable {t : Template} {a b : Arguments} {config : Config} {e e' : TemplateError}

theorem FailsInside.eq (hinside : t.FailsInside a config) (h : a.AgreesOn t.arguments b)
    (he : t.evaluate a config = .error e) (he' : t.evaluate b config = .error e') : e' = e := by
  obtain ⟨e₀, hall⟩ := hinside
  cases he.symm.trans (hall t.source)
  -- The error is the same in a text that it does not name, so it has not arisen outside.
  obtain ⟨source, hsource⟩ : ∃ source, source ≠ e.template := ⟨e.template ++ "?", by simp⟩
  cases errorsAlike_of_agreesOn h (hall source) he' with
  | inside => rfl
  | outside => exact absurd rfl hsource

/-- An error outside of embedded texts names the template and shows its arguments. -/
theorem named_of_not_failsInside (houtside : ¬ t.FailsInside a config)
    (h : a.AgreesOn t.arguments b) (he : t.evaluate a config = .error e)
    (he' : t.evaluate b config = .error e') :
    e.template = t.source ∧ e.parameters = a.text ∧ e'.parameters = b.text := by
  have hsame : a.AgreesOn t.arguments a := fun name _ => ⟨rfl, rfl⟩
  obtain ⟨source, hsource⟩ : ∃ source, evaluate ⟨source, t.nodes⟩ a config ≠ .error e :=
    not_forall.1 (not_exists.1 houtside e)
  -- In the other text the evaluation fails too, with an error that names that one.
  obtain ⟨e₁, he₁, halike⟩ := exists_error_of_agreesOn hsame he source
  have hne : e ≠ e₁ := by
    rintro rfl
    exact hsource he₁
  obtain ⟨htemplate, hparameters⟩ := halike.named hne
  refine ⟨htemplate.1, hparameters.1, ?_⟩
  by_cases hee' : e = e'
  · have hne' : e₁ ≠ e' := hee' ▸ hne.symm
    exact ((errorsAlike_of_agreesOn h he₁ he').named hne').2.2
  · exact ((errorsAlike_of_agreesOn h he he').named hee').2.2

end Failures

/-- A template gives the same for two arguments that agree on those it mentions. Where it fails,
it fails with the same error in an embedded text, and else with errors that differ in nothing
but the arguments that they show. -/
theorem evaluate_of_agreesOn {t : Template} {a b : Arguments} (h : a.AgreesOn t.arguments b)
    (config : Config) :
    t.arguments.Nodup ∧
      ((∃ q, t.evaluate a config = .ok q ∧ t.evaluate b config = .ok q) ∨
        ∃ e e', t.evaluate a config = .error e ∧ t.evaluate b config = .error e' ∧
          e'.kind = e.kind ∧ e'.expression = e.expression ∧ e'.clause = e.clause ∧
          e'.template = e.template ∧
          (t.FailsInside a config → e'.parameters = e.parameters) ∧
          (¬ t.FailsInside a config →
            e.template = t.source ∧ e.parameters = a.text ∧ e'.parameters = b.text)) := by
  refine ⟨nodup_arguments t, ?_⟩
  cases he : t.evaluate a config with
  | ok q =>
      have hmatch := resultsMatch_evaluate h config t.source t.source
      exact .inl ⟨q, rfl, hmatch.eq_ok he⟩
  | error e =>
      obtain ⟨e', he', herrors⟩ := exists_error_of_agreesOn h he t.source
      obtain ⟨hkind, hexpression, hclause⟩ := herrors.same
      refine .inr ⟨e, e', rfl, he', hkind, hexpression, hclause, ?_, ?_, ?_⟩
      · exact herrors.template_eq rfl
      · intro hinside
        rw [hinside.eq h he he']
      · intro houtside
        exact named_of_not_failsInside houtside h he he'

/-- The argument that the template does not mention is not shown by an error in the text that
the other argument is. -/
theorem evaluate_of_agreesOn_embedded :
    let t : Template := ⟨"/*$p*/x", [.embedded ⟨"p", ⟨.argument "p", []⟩, .none, "x"⟩ .normal]⟩
    let a : Arguments := ⟨[("q", .string "secret"), ("p", .string "/*END*/")], []⟩
    let b : Arguments := ⟨[("p", .string "/*END*/")], [("q", .string)]⟩
    a.AgreesOn t.arguments b ∧ a.text ≠ b.text ∧
      ∃ e, t.evaluate a {} = .error e ∧
        ∃ e', t.evaluate b {} = .error e' ∧ e'.parameters = e.parameters := by
  intro t a b
  have hagrees : a.AgreesOn t.arguments b := by
    intro name hname
    obtain rfl : name = "p" := by simpa [t, arguments, argumentNames, Node.mentionsAll,
      Node.mentions, Path.argument?] using hname
    exact ⟨rfl, rfl⟩
  have hinside : t.FailsInside a {} := by
    refine ⟨.structural (.unexpectedDirective "END" 1 1) "END" "/*END*/", ?_⟩
    intro source
    cbv
  refine ⟨hagrees, by decide, ?_⟩
  rcases (evaluate_of_agreesOn hagrees {}).2 with ⟨q, hq, -⟩ | ⟨e, e', he, he', -, -, -, -, h, -⟩
  · obtain ⟨e, he⟩ := hinside
    cases hq.symm.trans (he t.source)
  · exact ⟨e, he, e', he', h hinside⟩

end Template

end SqlTemplate
