import Mathlib
import SqlTemplate.Proofs.Clauses
import SqlTemplate.Proofs.FaultPlaces
import SqlTemplate.Proofs.StructuralErrors

/-!
# Texts of errors

A template is rendered through texts: the source, and what is embedded (`Template.IsText`). A node
keeps the part of its text that errors name (`Node.Quotes`), so a node that was read from a text
quotes it, and so do all nodes in it (`quotes_of_readNodes`). From scene to scene the nodes quote the
text that their environment names (`Scene.QuotedFrom.of_reaches`). An error that arises at a node
names its expression (`Scene.Raises.unreadable_or_blamedOn`), and one of a text that cannot be read
names the comment (`fault_of_readNodes`). So whatever goes wrong is pointed at in the text in which
it went wrong (`render_error_text`).
-/

namespace SqlTemplate

open Text (trim)
open ErrorCategory (structural)

namespace Template

namespace Node

/-- The part of the text that errors at the node name. -/
def expression? : Node → Option String
  | .bind v | .embedded v _ => some v.expression
  | .ifBlock condition _ _ => some condition.expression
  | .forBlock expression _ _ _ => some expression
  | _ => none

/-- The clauses that errors at the node name. -/
def clauseTexts : Node → List String
  | .ifBlock condition _ _ => condition.clauses.map Clause.source
  | _ => []

/-- What errors at the node name stands in the text. -/
structure Quotes (text : List Char) (n : Node) : Prop where
  expression : ∀ e, n.expression? = some e → e.toList <:+: text
  clauses : ∀ e, n.expression? = some e → ∀ c ∈ n.clauseTexts, c.toList <:+: e.toList

variable {text : List Char} {n : Node}

theorem quotes_of_expression?_eq_none (h : n.expression? = none) : n.Quotes text := by
  constructor
  · intro e he
    cases h.symm.trans he
  · intro e he
    cases h.symm.trans he

theorem passesToConnectors_quotes (text : List Char) :
    PassesToConnectors fun _ => Quotes text :=
  fun _ _ _ _ _ _ => quotes_of_expression?_eq_none rfl

end Node

namespace Source

variable {s : Source} {inLoop : Bool} {p : Place} {text : List Char}

/-- What a comment says quotes the comment. -/
theorem quotes_of_item_eq_ok {testValue : List Char} {i : Item}
    (h : s.item inLoop p testValue = .ok i) (hbody : p.body <:+: text) :
    i.Has (Node.Quotes text) := by
  have hoperand : ∀ operand, (Directive.ofBody p.body).operand? = some operand →
      (String.ofList (trim operand)).toList <:+: text := by
    intro operand h
    rw [String.toList_ofList]
    exact (Text.isInfix_trim operand).trans ((Directive.isInfix_operand h).trans hbody)
  rw [item_eq_ok_iff] at h
  generalize Directive.ofBody p.body = d at h hoperand
  cases h with
  | bind hv | embedded hv =>
      constructor
      · rintro e ⟨⟩
        rw [(readVariable_eq_ok_iff.1 hv).2.1]
        exact hoperand _ rfl
      · exact fun _ _ _ h => nomatch h
  | ifMark hcondition =>
      have hcondition := (readCondition_eq_ok_iff.1 hcondition).1
      intro body otherwise
      constructor
      · rintro e ⟨⟩
        rw [Condition.expression_of_ofText_eq_ok hcondition]
        exact hoperand _ rfl
      · rintro e ⟨⟩ clause hclause
        obtain ⟨c, hc, rfl⟩ := List.mem_map.1 hclause
        exact Condition.isInfix_source_of_ofText_eq_ok hcondition hc
  | forMark hpath _ =>
      intro body otherwise
      constructor
      · rintro e ⟨⟩
        exact hoperand _ rfl
      · exact fun _ _ _ h => nomatch h
  | beginMark | firstMark | lastMark =>
      exact fun _ _ => Node.quotes_of_expression?_eq_none rfl
  | plain | nextMark => exact Node.quotes_of_expression?_eq_none rfl
  | elseMark | endMark => trivial

end Source

/-- The nodes that are read from a text quote it. -/
theorem quotes_of_readNodes {text : String} {inLoop : Bool} {ns : List Node}
    (h : readNodes text inLoop = .ok ns) :
    ∀ n ∈ ns, n.Throughout (fun _ => Node.Quotes text.toList) inLoop := by
  refine throughout_of_readNodes h (Node.passesToConnectors_quotes _)
    (fun _ _ => Node.quotes_of_expression?_eq_none rfl) ?_
  intro body start testValue hmem s inLoop i hitem
  refine Source.quotes_of_item_eq_ok hitem ?_
  exact (Cursor.lexes_readAll (.ofText text)).isInfix_body (Cursor.standsBehind_ofText text) hmem

end Template

/-- Every node of the scene quotes the text that is evaluated. -/
def Scene.QuotedFrom : Scene → Prop :=
  Throughout fun text _ => Template.Node.Quotes text.toList

theorem Scene.QuotedFrom.of_reaches {scene reached : Scene} (h : scene.QuotedFrom)
    (hreaches : scene.Reaches reached) : reached.QuotedFrom :=
  Throughout.of_reaches h (fun _ _ _ _ _ _ _ hread => Template.quotes_of_readNodes hread) hreaches

section Blame

variable {env : Environment} {loops : List Loop} {e : TemplateError}

/-- The error names the node, and the text of the environment. -/
structure TemplateError.IsBlamedOn (e : TemplateError) (env : Environment)
    (n : Template.Node) : Prop where
  template : e.template = env.template
  expression : n.expression? = some e.expression
  clause : ∀ c, e.clause = some c → c ∈ n.clauseTexts

/-- An error that arises in a scene is that of an embedded text that cannot be read, or it names a
node of the scene. -/
theorem Scene.Raises.unreadable_or_blamedOn {scene : Scene} (h : scene.Raises e) :
    (∃ v mode r text, Template.Node.embedded v mode ∈ scene.nodes ∧
      v.Embeds scene.environment scene.loops r text ∧
      Template.readNodes text (!scene.loops.isEmpty) = .error e) ∨
    ∃ n ∈ scene.nodes, e.IsBlamedOn scene.environment n := by
  cases h with
  | unreadable hmem hembeds _ hread => exact .inl ⟨_, _, _, _, hmem, hembeds, hread⟩
  | bound hmem h =>
      obtain ⟨kind, rfl, -⟩ := Template.Variable.exists_fail_of_bound_eq_error h
      exact .inr ⟨_, hmem, rfl, rfl, fun _ h => nomatch h⟩
  | embedded hmem h =>
      obtain ⟨kind, rfl, -⟩ := Template.Variable.exists_fail_of_embedded_eq_error h
      exact .inr ⟨_, hmem, rfl, rfl, fun _ h => nomatch h⟩
  | tooDeep hmem => exact .inr ⟨_, hmem, rfl, rfl, fun _ h => nomatch h⟩
  | condition hmem h =>
      obtain ⟨kind, clause, hclause, rfl, -⟩ := Condition.exists_error_of_evaluate_eq_error h
      refine .inr ⟨_, hmem, rfl, rfl, ?_⟩
      rintro c ⟨⟩
      exact List.mem_map_of_mem hclause
  | source hmem h =>
      obtain ⟨kind, rfl, -⟩ := Path.exists_error_of_resolve_eq_error h
      exact .inr ⟨_, hmem, rfl, rfl, fun _ h => nomatch h⟩
  | notList hmem => exact .inr ⟨_, hmem, rfl, rfl, fun _ h => nomatch h⟩

end Blame

/-- What the error shows stands in the text: its expression, the clause in the expression, and an
opening mark at the place. -/
structure TemplateError.PointsInto (e : TemplateError) (text : String) : Prop where
  template : e.template = text
  expression : e.expression.toList <:+: text.toList
  clause : ∀ c, e.clause = some c → c.toList <:+: e.expression.toList
  kind : e.kind.PointsInto text

namespace Template

theorem pointsInto_of_readNodes {text : String} {inLoop : Bool} {e : TemplateError}
    (h : readNodes text inLoop = .error e) : e.PointsInto text := by
  obtain ⟨kind, expression, rfl, hexpression, hkind⟩ := fault_of_readNodes h
  refine ⟨rfl, hexpression, ?_, hkind⟩
  rintro c ⟨⟩

/-- An error that names a node of a scene points into the text that is evaluated. -/
theorem pointsInto_of_isBlamedOn {scene : Scene} {n : Node} {e : TemplateError}
    (hquoted : scene.QuotedFrom) (hn : n ∈ scene.nodes)
    (hblamed : e.IsBlamedOn scene.environment n) (hcategory : e.kind.category ≠ structural) :
    e.PointsInto scene.environment.template := by
  obtain ⟨hexpression, hclauses⟩ := (hquoted n hn).self
  refine ⟨hblamed.template, hexpression _ hblamed.expression, ?_, ?_⟩
  · intro c hc
    exact hclauses _ hblamed.expression c (hblamed.clause c hc)
  · have hplace := ErrorKind.place?_eq_none_of_category hcategory
    exact ErrorKind.pointsInto_of_place?_eq_none hplace _

/-- The rendering of the source goes through the text: it is the source, or it is embedded in what
is evaluated. -/
inductive IsText (source : String) (arguments : Arguments) (config : Config) : String → Prop where
  | source : IsText source arguments config source
  | embedded {t scene v mode r text} (ht : ofText source = .ok t)
      (hreaches : (t.scene arguments config).Reaches scene)
      (hmem : Node.embedded v mode ∈ scene.nodes)
      (hembeds : v.Embeds scene.environment scene.loops r text) :
      IsText source arguments config text

/-- The error arises when the text is read, or at a node of it when it is evaluated. -/
inductive ArisesIn (source : String) (arguments : Arguments) (config : Config)
    (e : TemplateError) : String → Prop where
  | source (hread : readNodes source false = .error e) : ArisesIn source arguments config e source
  | embedded {t scene v mode r text} (ht : ofText source = .ok t)
      (hreaches : (t.scene arguments config).Reaches scene)
      (hmem : Node.embedded v mode ∈ scene.nodes)
      (hembeds : v.Embeds scene.environment scene.loops r text)
      (hread : readNodes text (!scene.loops.isEmpty) = .error e) :
      ArisesIn source arguments config e text
  | evaluated {t scene n} (ht : ofText source = .ok t)
      (hreaches : (t.scene arguments config).Reaches scene) (hraises : scene.Raises e)
      (hn : n ∈ scene.nodes) (hblamed : e.IsBlamedOn scene.environment n) :
      ArisesIn source arguments config e scene.environment.template

variable {source : String} {arguments : Arguments} {config : Config} {e : TemplateError}

/-- Whatever scene is reached, its text is one that the rendering goes through. -/
theorem isText_of_reaches {t : Template} {scene : Scene} (ht : ofText source = .ok t)
    (hreaches : (t.scene arguments config).Reaches scene) :
    IsText source arguments config scene.environment.template := by
  induction hreaches with
  | refl =>
      obtain ⟨ns, -, h⟩ := Except.bind_eq_ok_iff.1 ht
      cases h
      exact .source
  | tail hreaches hstep ih =>
      rcases hstep.part_or_text with
        ⟨n, -, -, henv, -⟩ | ⟨v, mode, r, text, hmem, hembeds, -, -, henv⟩
      · rw [henv]
        exact ih
      · rw [henv]
        exact .embedded ht hreaches hmem hembeds

theorem quotedFrom_scene {t : Template} (ht : ofText source = .ok t) (arguments : Arguments)
    (config : Config) : (t.scene arguments config).QuotedFrom := by
  obtain ⟨ns, hread, h⟩ := Except.bind_eq_ok_iff.1 ht
  cases h
  exact quotes_of_readNodes hread

/-- An error of a rendering arises in a text that the rendering goes through, and points into it. -/
theorem exists_text_of_render_eq_error (h : render source arguments config = .error e) :
    ∃ text, IsText source arguments config text ∧ ArisesIn source arguments config e text ∧
      e.PointsInto text := by
  rcases Except.bind_eq_error_iff.1 h with h | ⟨t, ht, h⟩
  · have hread : readNodes source false = .error e := by
      rcases Except.bind_eq_error_iff.1 h with h | ⟨ns, -, h⟩
      · exact h
      · cases h
    exact ⟨source, .source, .source hread, pointsInto_of_readNodes hread⟩
  · obtain ⟨scene, hreaches, hraises⟩ :=
      exists_raises_of_evaluateNodes (Run.toResult_eq_error_iff.1 h)
    have hscope := (wellScoped_scene ht arguments config).of_reaches hreaches
    have hquoted := (quotedFrom_scene ht arguments config).of_reaches hreaches
    rcases hraises.unreadable_or_blamedOn with
      ⟨v, mode, r, text, hmem, hembeds, hread⟩ | ⟨n, hn, hblamed⟩
    · exact ⟨text, .embedded ht hreaches hmem hembeds,
        .embedded ht hreaches hmem hembeds hread, pointsInto_of_readNodes hread⟩
    · by_cases hcategory : e.kind.category = structural
      · obtain ⟨v, mode, r, text, hmem, hembeds, hread⟩ :=
          Scene.exists_unreadable_of_raises hscope hraises hcategory
        exact ⟨text, .embedded ht hreaches hmem hembeds,
          .embedded ht hreaches hmem hembeds hread, pointsInto_of_readNodes hread⟩
      · exact ⟨_, isText_of_reaches ht hreaches, .evaluated ht hreaches hraises hn hblamed,
          pointsInto_of_isBlamedOn hquoted hn hblamed hcategory⟩

/-- An error points at the text that caused it: at the source, or at the text that was embedded
and is read or evaluated when the error arises. The expression stands in that text and the clause
in the expression, and where the message shows a line and a column, an opening mark stands there. -/
theorem render_error_text (h : render source arguments config = .error e) :
    e.expression.toList <:+: e.template.toList ∧
      (∀ c, e.clause = some c → c.toList <:+: e.expression.toList) ∧
      IsText source arguments config e.template ∧
      ArisesIn source arguments config e e.template ∧ e.kind.PointsInto e.template := by
  obtain ⟨text, htext, harises, hpoints⟩ := exists_text_of_render_eq_error h
  obtain rfl := hpoints.template
  exact ⟨hpoints.expression, hpoints.clause, htext, harises, hpoints.kind⟩

/-- A block that is not closed is found in the embedded text, in its second line. -/
theorem render_error_text_of_embedded :
    let arguments : Arguments := ⟨[("p", .string "é\n /*BEGIN*/")], []⟩
    let e : TemplateError := .structural (.unclosedBlock "BEGIN" 2 2) "BEGIN" "é\n /*BEGIN*/"
    render "/*$p*/x" arguments {} = .error e ∧
      IsText "/*$p*/x" arguments {} "é\n /*BEGIN*/" ∧ e.kind.PointsInto "é\n /*BEGIN*/" := by
  intro arguments e
  let t : Template := ⟨"/*$p*/x", [.embedded ⟨"p", ⟨.argument "p", []⟩, .none, "x"⟩ .normal]⟩
  have hlexes : (Cursor.ofText "/*$p*/x").Lexes _ none := .comment rfl (.stop rfl)
  have hstop : (Source.mk "/*$p*/x" none).Reads false [] [] .stop [] := .stop rfl
  have hread : ofText "/*$p*/x" = .ok t := by
    refine Except.bind_eq_ok_iff.2 ⟨t.nodes, ?_, rfl⟩
    rw [readNodes_eq_ok_iff, hlexes.readAll_eq]
    exact .node rfl hstop
  have hfails : t.evaluate arguments {} = .error e := by cbv
  have h : render "/*$p*/x" arguments {} = .error e :=
    Except.bind_eq_error_iff.2 (.inr ⟨t, hread, hfails⟩)
  obtain ⟨-, -, htext, -, hkind⟩ := render_error_text h
  exact ⟨h, htext, hkind⟩

end Template

end SqlTemplate
