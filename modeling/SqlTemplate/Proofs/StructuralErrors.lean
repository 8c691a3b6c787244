import Mathlib
import SqlTemplate.Proofs.FaultPlaces
import SqlTemplate.Proofs.Lexemes
import SqlTemplate.Proofs.Scenes
import SqlTemplate.Proofs.Scope

/-!
# Structural errors

What is wrong with a template as such is found when it is read. An evaluation has errors of
other categories: a path that cannot be followed, a value that its place does not accept, a
comparison without an answer. Each names the expression or the clause that it arose at
(`Variable.exists_fail_of_embedded_eq_error`, `Condition.exists_error_of_evaluate_eq_error`). One
error in following a path is a structural one, and it arises outside of loops only, where no path
that was read needs one. So a structural error of an evaluation is that of a text that is embedded
in it and cannot be read (`structural_error_of_evaluate`).
-/

namespace SqlTemplate

open ErrorCategory (structural)

theorem Missing.category_kind (m : Missing) (walked : String) (v : Value) (step : Segment) :
    (m.kind walked v step).category = .resolution := by
  rw [kind.eq_def]
  split <;> rfl

theorem Walk.category_of_step_eq_error {w : Walk} {step : Segment} {kind : ErrorKind}
    (h : w.step step = .error kind) : kind.category = .resolution := by
  rw [Walk.step] at h
  split at h
  next m _ =>
    cases h
    exact m.category_kind w.walked w.value step
  next => cases h

theorem PathRoot.resolve_ne_outsideLoop {root : PathRoot} {env : Environment}
    {loops : List Loop} (hscope : root = .loop → loops ≠ []) :
    root.resolve env loops ≠ .error .loopVariableOutsideLoop := by
  intro h
  cases root with
  | argument name =>
      rw [resolve] at h
      split at h <;> cases h
  | loop =>
      obtain ⟨l, ls, rfl⟩ := List.exists_cons_of_ne_nil (hscope rfl)
      cases h

namespace Path

variable {p : Path} {env : Environment} {loops : List Loop}

theorem not_structural_of_follow_eq_error {kind : ErrorKind}
    (hscope : p.usesLoop = true → loops ≠ []) (h : p.follow env loops = .error kind) :
    kind.category ≠ structural := by
  rcases Except.bind_eq_error_iff.1 h with hroot | ⟨⟨first, type⟩, -, h⟩
  · have hne : kind ≠ .loopVariableOutsideLoop := by
      rintro rfl
      refine PathRoot.resolve_ne_outsideLoop ?_ hroot
      intro hloop
      exact hscope (by rw [usesLoop, hloop]; rfl)
    rw [PathRoot.resolve.eq_def] at hroot
    split at hroot
    next =>
      split at hroot
      next => cases hroot
      next =>
        cases hroot
        intro hcategory
        cases hcategory
    next =>
      split at hroot
      next => cases hroot
      next =>
        cases hroot
        exact absurd rfl hne
  · rcases Except.bind_eq_error_iff.1 h with h | ⟨w, -, h⟩
    · obtain ⟨step, -, w, hstep⟩ := Except.exists_mem_of_foldlM_eq_error h
      rw [Walk.category_of_step_eq_error hstep]
      decide
    · cases h

theorem exists_error_of_resolve_eq_error {expression : String} {e : TemplateError}
    (h : p.resolve expression env loops = .error e) :
    ∃ kind, e = env.error kind expression ∧
      ((p.usesLoop = true → loops ≠ []) → kind.category ≠ structural) := by
  obtain ⟨kind, hkind, rfl⟩ := Except.mapError_eq_error_iff.1 h
  exact ⟨kind, rfl, fun hscope => not_structural_of_follow_eq_error hscope hkind⟩

end Path

theorem Value.category_of_compare_eq_error {operator : Operator} {a b : Value}
    {kind : ErrorKind} (h : compare operator a b = .error kind) :
    kind.category = .comparison := by
  rw [compare.eq_def] at h
  split at h
  next =>
    cases h
    rfl
  next =>
    split at h
    next => cases h
    next => cases h
    next =>
      split at h
      next => cases h
      next =>
        cases h
        rfl

section Conditions

variable {env : Environment} {loops : List Loop} {expression : String} {e : TemplateError}

theorem Term.exists_error_of_evaluate_eq_error {t : Term}
    (h : t.evaluate expression env loops = .error e) :
    ∃ kind, e = env.error kind expression ∧
      ((∀ p, t.path? = some p → p.usesLoop = true → loops ≠ []) → kind.category ≠ structural) := by
  cases t with
  | path p =>
      rw [evaluate, Except.map_eq_error_iff] at h
      obtain ⟨kind, rfl, hkind⟩ := Path.exists_error_of_resolve_eq_error h
      exact ⟨kind, rfl, fun hscope => hkind (hscope p rfl)⟩
  | null | bool | string | date | number => cases h

theorem Clause.exists_error_of_evaluate_eq_error {c : Clause}
    (h : c.evaluate expression env loops = .error e) :
    ∃ kind, e = (env.error kind expression).withClause c.source ∧
      ((∀ p ∈ c.paths, p.usesLoop = true → loops ≠ []) → kind.category ≠ structural) := by
  have hterm : (∀ p ∈ c.paths, p.usesLoop = true → loops ≠ []) →
      ∀ t ∈ c.terms, ∀ p, t.path? = some p → p.usesLoop = true → loops ≠ [] :=
    fun hscope t ht p hp => hscope p (List.mem_filterMap.2 ⟨t, ht, hp⟩)
  rw [evaluate] at h
  obtain ⟨e', hdecide, rfl⟩ := Except.mapError_eq_error_iff.1 h
  rw [ClauseKind.decide.eq_def] at hdecide
  rw [terms] at hterm
  split at hdecide
  next left operator right hclause =>
    rw [hclause, List.forall_mem_cons, List.forall_mem_singleton] at hterm
    rcases Except.bind_eq_error_iff.1 hdecide with h | ⟨a, -, h⟩
    · obtain ⟨kind, rfl, hkind⟩ := Term.exists_error_of_evaluate_eq_error h
      exact ⟨kind, rfl, fun hscope => hkind (hterm hscope).1⟩
    · rcases Except.bind_eq_error_iff.1 h with h | ⟨b, -, h⟩
      · obtain ⟨kind, rfl, hkind⟩ := Term.exists_error_of_evaluate_eq_error h
        exact ⟨kind, rfl, fun hscope => hkind (hterm hscope).2⟩
      · obtain ⟨kind, hcompare, rfl⟩ := Except.mapError_eq_error_iff.1 h
        refine ⟨kind, rfl, fun _ => ?_⟩
        rw [Value.category_of_compare_eq_error hcompare]
        decide
  next negated term hclause =>
    rw [hclause, List.forall_mem_singleton] at hterm
    rcases Except.bind_eq_error_iff.1 hdecide with h | ⟨v, -, h⟩
    · obtain ⟨kind, rfl, hkind⟩ := Term.exists_error_of_evaluate_eq_error h
      exact ⟨kind, rfl, fun hscope => hkind (hterm hscope)⟩
    · split at h
      next => cases h
      next =>
        cases h
        refine ⟨_, rfl, fun _ hcategory => ?_⟩
        cases hcategory

/-- A condition fails at one of its clauses. -/
theorem Condition.exists_error_of_evaluate_eq_error {c : Condition}
    (h : c.evaluate env loops = .error e) :
    ∃ kind, ∃ clause ∈ c.clauses, e = (env.error kind c.expression).withClause clause.source ∧
      ((c.usesLoop = true → loops ≠ []) → kind.category ≠ structural) := by
  have hclauses : (c.usesLoop = true → loops ≠ []) →
      ∀ clause ∈ c.clauses, ∀ p ∈ clause.paths, p.usesLoop = true → loops ≠ [] := by
    intro hscope clause hclause p hp huses
    have hmem : p ∈ c.paths := List.mem_flatMap.2 ⟨clause, hclause, hp⟩
    exact hscope (List.any_eq_true.2 ⟨p, hmem, huses⟩)
  rw [evaluate] at h
  generalize c.clauses = clauses at h hclauses
  induction clauses with
  | nil => cases h
  | cons clause clauses ih =>
      simp only [List.forall_mem_cons] at hclauses
      rcases Except.bind_eq_error_iff.1 h with h | ⟨b, -, h⟩
      · obtain ⟨kind, rfl, hkind⟩ := Clause.exists_error_of_evaluate_eq_error h
        exact ⟨kind, clause, List.mem_cons_self, rfl, fun hscope => hkind (hclauses hscope).1⟩
      · split at h
        next => cases h
        next =>
          obtain ⟨kind, clause', hclause, he⟩ := ih h fun hscope => (hclauses hscope).2
          exact ⟨kind, clause', List.mem_cons_of_mem clause hclause, he⟩

end Conditions

namespace Template.Variable

variable {v : Variable} {env : Environment} {loops : List Loop} {e : TemplateError}

theorem category_of_elements_eq_error {w : Value} {kind : ErrorKind}
    (h : elements w = .error kind) : kind.category = .valuePolicy := by
  rw [elements.eq_def] at h
  split at h
  next =>
    cases h
    rfl
  next =>
    split at h
    next =>
      cases h
      rfl
    next => cases h
  next =>
    cases h
    rfl
  next =>
    cases h
    rfl

theorem category_of_scalar_eq_error {w : Value} {kind : ErrorKind}
    (h : scalar w = .error kind) : kind.category = .valuePolicy := by
  rw [scalar.eq_def] at h
  split at h
  next =>
    cases h
    rfl
  next => cases h

theorem category_of_embeddedText_eq_error {quoted : Bool} {w : Value} {kind : ErrorKind}
    (h : embeddedText quoted w = .error kind) : kind.category = .valuePolicy := by
  rw [embeddedText] at h
  split at h
  next =>
    cases h
    rfl
  next => split at h <;> cases h

theorem exists_fail_of_mapError {α : Type} {r : Except ErrorKind α}
    (hr : ∀ kind, r = .error kind → kind.category = .valuePolicy)
    (h : r.mapError (v.fail env) = .error e) :
    ∃ kind, e = v.fail env kind ∧
      ((v.path.usesLoop = true → loops ≠ []) → kind.category ≠ structural) := by
  obtain ⟨kind, hkind, rfl⟩ := Except.mapError_eq_error_iff.1 h
  refine ⟨kind, rfl, fun _ => ?_⟩
  rw [hr kind hkind]
  decide

theorem exists_fail_of_resolve_eq_error (h : v.resolve env loops = .error e) :
    ∃ kind, e = v.fail env kind ∧
      ((v.path.usesLoop = true → loops ≠ []) → kind.category ≠ structural) := by
  rcases Except.bind_eq_error_iff.1 h with h | ⟨r, -, h⟩
  · exact Path.exists_error_of_resolve_eq_error h
  · dsimp only at h
    split at h
    next =>
      cases h
      refine ⟨_, rfl, fun _ hcategory => ?_⟩
      cases hcategory
    next => cases h

theorem exists_fail_of_bound_eq_error (h : v.bound env loops = .error e) :
    ∃ kind, e = v.fail env kind ∧
      ((v.path.usesLoop = true → loops ≠ []) → kind.category ≠ structural) := by
  rcases Except.bind_eq_error_iff.1 h with h | ⟨r, -, h⟩
  · exact exists_fail_of_resolve_eq_error h
  · split at h
    next =>
      rcases Except.bind_eq_error_iff.1 h with h | ⟨present, -, h⟩
      · exact exists_fail_of_mapError (fun _ => category_of_elements_eq_error) h
      · cases h
    next =>
      rcases Except.bind_eq_error_iff.1 h with h | ⟨w, -, h⟩
      · exact exists_fail_of_mapError (fun _ => category_of_scalar_eq_error) h
      · cases h

/-- The error of an embedded variable is its own, but for that of an embedded text. -/
theorem exists_fail_of_embedded_eq_error {mode : EmbeddedMode}
    (h : ∀ embedding, v.embedded embedding mode env loops = .error e) :
    ∃ kind, e = v.fail env kind ∧
      ((v.path.usesLoop = true → loops ≠ []) → kind.category ≠ structural) := by
  have h := h fun _ _ _ _ => .ok .empty
  rcases Except.bind_eq_error_iff.1 h with h | ⟨r, -, h⟩
  · exact exists_fail_of_resolve_eq_error h
  · split at h
    next =>
      rcases Except.bind_eq_error_iff.1 h with h | ⟨present, -, h⟩
      · exact exists_fail_of_mapError (fun _ => category_of_elements_eq_error) h
      · rcases Except.bind_eq_error_iff.1 h with h | ⟨parts, -, h⟩
        · refine exists_fail_of_mapError (fun kind hkind => ?_) h
          obtain ⟨w, -, hw⟩ := Except.exists_mem_of_mapM_eq_error hkind
          exact category_of_embeddedText_eq_error hw
        · cases h
    next =>
      rcases Except.bind_eq_error_iff.1 h with h | ⟨w, -, h⟩
      · exact exists_fail_of_mapError (fun _ => category_of_scalar_eq_error) h
      · split at h
        next => cases h
        next =>
          rcases Except.bind_eq_error_iff.1 h with h | ⟨s, -, h⟩
          · exact exists_fail_of_mapError (fun _ => category_of_embeddedText_eq_error) h
          · cases h

end Template.Variable

/-- The nodes stand in a loop where they have to. -/
def Scene.WellScoped : Scene → Prop :=
  Throughout fun _ => Template.Node.IsScoped

theorem Scene.passesToTexts_isScoped : PassesToTexts fun _ => Template.Node.IsScoped :=
  fun _ _ _ _ _ _ _ hread => Template.wellScoped_of_readNodes hread

theorem Scene.WellScoped.ne_nil_of_needsLoop {scene : Scene} (h : scene.WellScoped)
    {n : Template.Node} (hn : n ∈ scene.nodes) (hneeds : n.needsLoop = true) :
    scene.loops ≠ [] := by
  simpa using (h n hn).self hneeds

theorem Scene.WellScoped.of_reaches {scene reached : Scene} (h : scene.WellScoped)
    (hreaches : scene.Reaches reached) : reached.WellScoped :=
  Throughout.of_reaches h passesToTexts_isScoped hreaches

/-- A structural error at a well-scoped node is that of an embedded text. -/
theorem Scene.exists_unreadable_of_raises {scene : Scene} {e : TemplateError}
    (hscope : scene.WellScoped) (h : scene.Raises e) (hcategory : e.kind.category = structural) :
    ∃ v mode r text, Template.Node.embedded v mode ∈ scene.nodes ∧
      v.Embeds scene.environment scene.loops r text ∧
      Template.readNodes text (!scene.loops.isEmpty) = .error e := by
  have hpaths : ∀ n ∈ scene.nodes, ∀ p ∈ n.paths, p.usesLoop = true → scene.loops ≠ [] :=
    fun n hn p hp huses =>
      hscope.ne_nil_of_needsLoop hn (Template.Node.needsLoop_of_mem_paths hp huses)
  cases h with
  | unreadable hmem hembeds _ hread => exact ⟨_, _, _, _, hmem, hembeds, hread⟩
  | bound hmem h =>
      obtain ⟨kind, rfl, hkind⟩ := Template.Variable.exists_fail_of_bound_eq_error h
      exact absurd hcategory (hkind (hpaths _ hmem _ (List.mem_singleton_self _)))
  | embedded hmem h =>
      obtain ⟨kind, rfl, hkind⟩ := Template.Variable.exists_fail_of_embedded_eq_error h
      exact absurd hcategory (hkind (hpaths _ hmem _ (List.mem_singleton_self _)))
  | condition hmem h =>
      obtain ⟨kind, clause, -, rfl, hkind⟩ := Condition.exists_error_of_evaluate_eq_error h
      exact absurd hcategory (hkind (hscope.ne_nil_of_needsLoop hmem))
  | source hmem h =>
      obtain ⟨kind, rfl, hkind⟩ := Path.exists_error_of_resolve_eq_error h
      exact absurd hcategory (hkind (hpaths _ hmem _ (List.mem_singleton_self _)))
  | tooDeep => cases hcategory
  | notList => cases hcategory

namespace Template

theorem wellScoped_scene {source : String} {t : Template} (h : ofText source = .ok t)
    (arguments : Arguments) (config : Config) : (t.scene arguments config).WellScoped := by
  obtain ⟨ns, hread, h⟩ := Except.bind_eq_ok_iff.1 h
  cases h
  exact wellScoped_of_readNodes hread

/-- A structural error of an evaluation is that of reading a text that is embedded in it. And
whatever is evaluated stands in a loop if it has to, so no path fails for the want of one. -/
theorem structural_error_of_evaluate {source : String} {t : Template}
    (h : ofText source = .ok t) (arguments : Arguments) (config : Config) :
    (∀ e, t.evaluate arguments config = .error e → e.kind.category = structural →
      ∃ scene, (t.scene arguments config).Reaches scene ∧
        ∃ v mode r text, Node.embedded v mode ∈ scene.nodes ∧
          v.Embeds scene.environment scene.loops r text ∧
          readNodes text (!scene.loops.isEmpty) = .error e ∧
          e.template = text ∧ e.parameters = TemplateError.notEvaluated) ∧
    ∀ scene, (t.scene arguments config).Reaches scene → ∀ n ∈ scene.nodes,
      (n.needsLoop = true → scene.loops ≠ []) ∧
      ∀ p ∈ n.paths,
        p.root.resolve scene.environment scene.loops ≠ .error .loopVariableOutsideLoop := by
  have hscope := wellScoped_scene h arguments config
  constructor
  · intro e he hcategory
    obtain ⟨scene, hreaches, hraises⟩ :=
      exists_raises_of_evaluateNodes (Run.toResult_eq_error_iff.1 he)
    obtain ⟨v, mode, r, text, hmem, hembeds, hread⟩ :=
      Scene.exists_unreadable_of_raises (hscope.of_reaches hreaches) hraises hcategory
    obtain ⟨kind, expression, rfl, -⟩ := fault_of_readNodes hread
    exact ⟨scene, hreaches, v, mode, r, text, hmem, hembeds, hread, rfl, rfl⟩
  · intro scene hreaches n hn
    have hloop := (hscope.of_reaches hreaches).ne_nil_of_needsLoop hn
    refine ⟨hloop, ?_⟩
    intro p hp
    refine PathRoot.resolve_ne_outsideLoop ?_
    intro hroot
    exact hloop (Node.needsLoop_of_mem_paths hp (by rw [Path.usesLoop, hroot]; rfl))

/-- An end without a block is found when the text with it is embedded. -/
theorem structural_error_of_evaluate_unexpected_end :
    let t : Template := ⟨"/*$p*/x", [.embedded ⟨"p", ⟨.argument "p", []⟩, .none, "x"⟩ .normal]⟩
    let arguments : Arguments := ⟨[("p", .string "/*END*/")], []⟩
    let e : TemplateError :=
      .structural (.unexpectedDirective "END" 1 1) "END" "/*END*/"
    ofText "/*$p*/x" = .ok t ∧ t.evaluate arguments {} = .error e ∧
      ∃ scene, (t.scene arguments {}).Reaches scene ∧
        ∃ v mode r text, Node.embedded v mode ∈ scene.nodes ∧
          v.Embeds scene.environment scene.loops r text ∧
          readNodes text (!scene.loops.isEmpty) = .error e ∧
          e.template = text ∧ e.parameters = TemplateError.notEvaluated := by
  intro t arguments e
  have hlexes : (Cursor.ofText "/*$p*/x").Lexes _ none := .comment rfl (.stop rfl)
  have hstop : (Source.mk "/*$p*/x" none).Reads false [] [] .stop [] := .stop rfl
  have hread : ofText "/*$p*/x" = .ok t := by
    refine Except.bind_eq_ok_iff.2 ⟨t.nodes, ?_, rfl⟩
    rw [readNodes_eq_ok_iff, hlexes.readAll_eq]
    exact .node rfl hstop
  have hfails : t.evaluate arguments {} = .error e := by cbv
  exact ⟨hread, hfails, (structural_error_of_evaluate hread arguments {}).1 e hfails rfl⟩

end Template

end SqlTemplate
