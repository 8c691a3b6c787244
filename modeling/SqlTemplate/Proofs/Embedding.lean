import SqlTemplate.Proofs.Placeholders

/-!
# Embedded variables

A value is embedded in one of two ways. Its text is taken as it is, or, where a comment
stands in it, the text is a template of its own (`Variable.embedsText`). What is added to
a context is said by `Context.embed_eq`: all that the variable gives, or nothing and an
error.

A text that is taken as it is holds no question mark; it is refused if it does. A template
keeps the question marks in its texts, and no values stand behind them. So embedding adds
as many question marks as values if and only if no text of an embedded template holds one
(`Context.embed_marks`).
-/

namespace SqlTemplate

namespace Template.Variable

/-- Whether the embedded value is a template of its own. -/
def embedsText (v : Variable) (r : Resolved) : Bool :=
  !v.inScope && r.target.asString?.any hasComment

/-- The values that are embedded. -/
def embeddedValues (v : Variable) (r : Resolved) : Except ErrorKind (List Value) :=
  if v.inScope then elements r.target else (scalar r.target).map fun w => [w]

theorem eq_of_scalar_eq_ok {w u : Value} (h : scalar w = .ok u) : u = w := by
  cases w with
  | list items => cases h
  | _ =>
      cases h
      rfl

theorem embeddedText_of_mark {w : Value} (h : '?' ∈ w.text.toList) (quoted : Bool) :
    embeddedText quoted w = .error (.bindSymbolInEmbedded w.text) := by
  simp [embeddedText, h]

theorem exists_embeddedText_eq_ok {w : Value} (h : '?' ∉ w.text.toList) (quoted : Bool) :
    ∃ s, embeddedText quoted w = .ok s := by
  cases hq : quoted && !w.isNull with
  | true => exact ⟨Text.sqlQuote w.text, by simp [embeddedText, h, hq]⟩
  | false => exact ⟨w.text, by simp [embeddedText, h, hq]⟩

/-- Of several values the first one with a question mark is refused. -/
theorem mapM_embeddedText_eq_error {before after : List Value} {w : Value}
    (hbefore : ∀ u ∈ before, '?' ∉ u.text.toList) (hw : '?' ∈ w.text.toList) (quoted : Bool) :
    (before ++ w :: after).mapM (embeddedText quoted) = .error (.bindSymbolInEmbedded w.text) := by
  induction before with
  | nil =>
      rw [List.nil_append, List.mapM_cons, embeddedText_of_mark hw]
      rfl
  | cons u before ih =>
      rw [List.forall_mem_cons] at hbefore
      obtain ⟨s, hs⟩ := exists_embeddedText_eq_ok hbefore.1 quoted
      rw [List.cons_append, List.mapM_cons, hs, ih hbefore.2]
      rfl

theorem exists_mapM_embeddedText_eq_error {ws : List Value}
    (h : ∃ w ∈ ws, '?' ∈ w.text.toList) (quoted : Bool) :
    ∃ w ∈ ws, '?' ∈ w.text.toList ∧
      ws.mapM (embeddedText quoted) = .error (.bindSymbolInEmbedded w.text) := by
  have hsome : (ws.find? fun w => decide ('?' ∈ w.text.toList)).isSome = true := by
    simpa using h
  obtain ⟨w, hw⟩ := Option.isSome_iff_exists.1 hsome
  obtain ⟨hmark, before, after, rfl, hbefore⟩ := List.find?_eq_some_iff_append.1 hw
  have hmark := of_decide_eq_true hmark
  refine ⟨w, by simp, hmark, mapM_embeddedText_eq_error (fun u hu => ?_) hmark quoted⟩
  simpa using hbefore u hu

/-- Text that is taken as it is may hold no question mark. -/
theorem embedded_of_mark {v : Variable} {env : Environment} {loops : List Loop}
    {r : Resolved} {ws : List Value} (hr : v.resolve env loops = .ok r)
    (htext : v.embedsText r = false) (hws : v.embeddedValues r = .ok ws)
    (hmark : ∃ w ∈ ws, '?' ∈ w.text.toList) (embedding : Embedding) (mode : EmbeddedMode) :
    ∃ w ∈ ws, '?' ∈ w.text.toList ∧
      v.embedded embedding mode env loops =
        .error (v.fail env (.bindSymbolInEmbedded w.text)) := by
  cases hscope : v.inScope with
  | true =>
      rw [embeddedValues, if_pos hscope] at hws
      obtain ⟨w, hw, hmark, herror⟩ := exists_mapM_embeddedText_eq_error hmark
        (mode != .replaceOnly && (firstElement? v.testValue.toList).any isQuoted)
      refine ⟨w, hw, hmark, ?_⟩
      simp [embedded, hr, hscope, hws, herror, bind, Except.bind, Except.mapError]
  | false =>
      rw [embeddedValues, hscope, if_neg Bool.false_ne_true, Except.map_eq_ok_iff] at hws
      obtain ⟨w, hw, rfl⟩ := hws
      have hfilter : w.asString?.filter hasComment = none := by
        rw [embedsText, hscope, ← eq_of_scalar_eq_ok hw] at htext
        cases hs : w.asString? with
        | none => rfl
        | some s => simpa [hs] using htext
      obtain ⟨u, hu, hmark⟩ := hmark
      obtain rfl := List.mem_singleton.1 hu
      refine ⟨u, hu, hmark, ?_⟩
      simp [embedded, hr, hscope, hw, hfilter, embeddedText_of_mark hmark, bind, Except.bind,
        Except.mapError]

/-- An embedded variable gives the pieces of a template of its own, or inserted text. -/
theorem embeddedPieces_cases {pieces : PieceEmbedding} {v : Variable} {mode : EmbeddedMode}
    {env : Environment} {loops : List Loop} {ps : List Piece}
    (h : v.embeddedPieces pieces mode env loops = .ok ps) :
    (∃ r text, v.resolve env loops = .ok r ∧ v.embedsText r = true ∧ r.target = .string text ∧
      pieces loops v r text = .ok ps) ∨
    ∀ p ∈ ps, ∃ s, p = .inserted s := by
  obtain ⟨r, hr, h⟩ := Except.bind_eq_ok_iff.1 h
  split at h
  next =>
    obtain ⟨present, -, h⟩ := Except.bind_eq_ok_iff.1 h
    obtain ⟨parts, -, h⟩ := Except.bind_eq_ok_iff.1 h
    cases h
    right
    intro p hp
    rcases mem_or_inserted_of_mem_listed hp with hp | ⟨s, -, rfl⟩
    · obtain ⟨s, -, rfl⟩ := List.mem_map.1 hp
      exact ⟨s, rfl⟩
    · exact ⟨s, rfl⟩
  next hscope =>
    obtain ⟨w, hw, h⟩ := Except.bind_eq_ok_iff.1 h
    have hw := eq_of_scalar_eq_ok (Except.mapError_eq_ok_iff.1 hw)
    split at h
    next text htext =>
      obtain ⟨hstring, hcomment⟩ := Option.filter_eq_some_iff.1 htext
      rw [hw] at hstring
      refine .inl ⟨r, text, hr, by simp [embedsText, hscope, hstring, hcomment], ?_, h⟩
      exact (Value.asString?_eq_some_iff _).1 hstring
    next =>
      obtain ⟨s, -, h⟩ := Except.bind_eq_ok_iff.1 h
      cases h
      right
      intro p hp
      rcases List.mem_cons.1 hp with rfl | hp
      · exact ⟨s, rfl⟩
      · obtain ⟨s, -, rfl⟩ := List.mem_map.1 hp
        exact ⟨s, rfl⟩

/-- Texts of templates are embedded by text that is a template of its own only. -/
theorem embedsText_of_literals_ne_nil {pieces : PieceEmbedding} {v : Variable}
    {mode : EmbeddedMode} {env : Environment} {loops : List Loop} {ps : List Piece}
    (h : v.embeddedPieces pieces mode env loops = .ok ps) (hne : Piece.literals ps ≠ []) :
    ∃ r, v.resolve env loops = .ok r ∧ v.embedsText r = true := by
  rcases embeddedPieces_cases h with ⟨r, text, hr, hembeds, -⟩ | hall
  · exact ⟨r, hr, hembeds⟩
  · refine absurd (List.filterMap_eq_nil_iff.2 ?_) hne
    intro p hp
    obtain ⟨s, rfl⟩ := hall p hp
    rfl

end Template.Variable

theorem Template.Node.evaluateAll_singleton (embedding : Variable.Embedding) (env : Environment)
    (loops : List Loop) (enabled : Bool) (n : Node) :
    evaluateAll embedding env loops enabled [n] = n.evaluate embedding env loops enabled := by
  rw [evaluateAll]
  exact Run.andThen_idle _

namespace Context

open Template (Node Variable EmbeddedMode embedding embeddingPieces)

theorem evaluate_singleton (c : Context) (loops : List Loop) (n : Node) :
    c.evaluate loops [n] = c.goOn fun enabled =>
      n.evaluate (embedding c.environment.remainingDepth c.environment) c.environment loops
        enabled := by
  simp only [evaluate, Template.evaluateNodes, Template.evaluateWithin_eq_evaluateAll,
    Node.evaluateAll_singleton]

theorem goOn_failed (c : Context) (e : TemplateError) : c.goOn (Run.failed e) = (c, some e) := by
  rw [goOn, Run.failed, add, BoundSql.append_empty]
  rfl

theorem goOn_ofResult (c : Context) (r : Except TemplateError BoundSql) :
    c.goOn (Run.ofResult r) =
      match r with
      | .ok sql => ((c.add sql).setEnabled true, none)
      | .error e => (c, some e) := by
  cases r with
  | ok sql => rfl
  | error e => exact goOn_failed c e

/-- A variable adds what it gives and makes the block count, or it fails and changes
nothing. -/
theorem embed_eq (c : Context) (loops : List Loop) (v : Variable) (mode : EmbeddedMode) :
    c.embed loops v mode =
      match v.embedded (embedding c.environment.remainingDepth c.environment) mode
        c.environment loops with
      | .ok sql => ((c.add sql).setEnabled true, none)
      | .error e => (c, some e) := by
  rw [embed, evaluate_singleton]
  exact goOn_ofResult c _

variable {c c' : Context} {loops : List Loop} {v : Variable} {mode : EmbeddedMode}

/-- What was added by a variable, in pieces. -/
theorem exists_pieces_of_embed_eq (h : c.embed loops v mode = (c', none)) :
    ∃ ps, v.embeddedPieces (embeddingPieces c.environment.remainingDepth c.environment) mode
        c.environment loops = .ok ps ∧
      c' = (c.add (.ofPieces ps)).setEnabled true := by
  rw [embed_eq, ← Variable.map_embeddedPieces (Template.isOf_embeddingPieces _ _)] at h
  cases hps : v.embeddedPieces (embeddingPieces c.environment.remainingDepth c.environment)
      mode c.environment loops with
  | error e =>
      rw [hps] at h
      cases h
  | ok ps =>
      rw [hps] at h
      cases h
      exact ⟨ps, rfl, rfl⟩

/-- Embedding adds as many question marks as values if and only if none stands in a text of
a template, and such a text is embedded by a value that is a template only. Of other values
one with a question mark is refused. -/
theorem embed_marks (c : Context) (loops : List Loop) (v : Variable) (mode : EmbeddedMode)
    (hescape : c.environment.config.likeEscape ≠ '?') :
    (∀ c', c.embed loops v mode = (c', none) →
      ∃ ps, v.embeddedPieces (embeddingPieces c.environment.remainingDepth c.environment)
          mode c.environment loops = .ok ps ∧
        c' = (c.add (.ofPieces ps)).setEnabled true ∧
        (marks (BoundSql.ofPieces ps).sql = (BoundSql.ofPieces ps).values.length ↔
          ∀ s ∈ Piece.literals ps, '?' ∉ s.toList) ∧
        (Piece.literals ps ≠ [] →
          ∃ r, v.resolve c.environment loops = .ok r ∧ v.embedsText r = true)) ∧
    ∀ r ws, v.resolve c.environment loops = .ok r → v.embedsText r = false →
      v.embeddedValues r = .ok ws → (∃ w ∈ ws, '?' ∈ w.text.toList) →
      ∃ w ∈ ws, '?' ∈ w.text.toList ∧
        c.embed loops v mode =
          (c, some (v.fail c.environment (.bindSymbolInEmbedded w.text))) := by
  constructor
  · intro c' h
    obtain ⟨ps, hps, hc⟩ := exists_pieces_of_embed_eq h
    have hsafe : ∀ p ∈ ps, p.IsSafe :=
      Variable.isSafe_of_embeddedPieces hescape
        (fun r text qs => Template.isSafe_of_embeddingPieces hescape) hps
    refine ⟨ps, hps, hc, ?_, Variable.embedsText_of_literals_ne_nil hps⟩
    rw [BoundSql.marks_ofPieces hsafe, ← Piece.literalMarks_eq_zero_iff]
    exact Nat.add_eq_left
  · intro r ws hr htext hws hmark
    obtain ⟨w, hw, hmark, herror⟩ := Variable.embedded_of_mark hr htext hws hmark
      (embedding c.environment.remainingDepth c.environment) mode
    refine ⟨w, hw, hmark, ?_⟩
    rw [embed_eq, herror]

/-- The question mark in the text of an embedded template is one without a value. -/
theorem embed_marks_of_template :
    let c : Context := .root ⟨[("p", .string "? /* c */")], []⟩ {} "/*$p*/x"
    let v : Variable := ⟨"p", ⟨.argument "p", []⟩, .none, "x"⟩
    c.environment.config.likeEscape ≠ '?' ∧
      ∃ ps, v.embeddedPieces (embeddingPieces c.environment.remainingDepth c.environment)
          .normal c.environment [] = .ok ps ∧
        Piece.literals ps = ["? ", "/* c */"] ∧
        marks (BoundSql.ofPieces ps).sql ≠ (BoundSql.ofPieces ps).values.length := by
  intro c v
  have hescape : c.environment.config.likeEscape ≠ '?' := by decide
  have hsuccess : c.embed [] v .normal =
      ((c.add ⟨"? /* c */", [], []⟩).setEnabled true, none) := by cbv
  have hpieces : v.embeddedPieces
      (embeddingPieces c.environment.remainingDepth c.environment) .normal c.environment [] =
        .ok [.literal "? ", .literal "/* c */"] := by cbv
  obtain ⟨ps, hps, -, hmarks, -⟩ := (embed_marks c [] v .normal hescape).1 _ hsuccess
  cases hpieces.symm.trans hps
  refine ⟨hescape, _, hpieces, rfl, ?_⟩
  rw [Ne, hmarks]
  intro h
  exact h "? " List.mem_cons_self (by decide)

/-- Embedding may add a question mark without a value. -/
theorem not_forall_embed_marks_eq :
    ¬ ∀ (c c' : Context) (loops : List Loop) (v : Variable) (mode : EmbeddedMode),
      c.environment.config.likeEscape ≠ '?' → c.embed loops v mode = (c', none) →
      ∃ added, c'.added = c.added ++ added ∧ marks added.sql = added.values.length := by
  intro h
  let c : Context := .root ⟨[("p", .string "? /* c */")], []⟩ {} "/*$p*/x"
  let v : Variable := ⟨"p", ⟨.argument "p", []⟩, .none, "x"⟩
  have hsuccess : c.embed [] v .normal =
      (⟨c.environment, ⟨"? /* c */", [], []⟩, true⟩, none) := by cbv
  obtain ⟨added, hadded, hmarks⟩ := h c _ [] v .normal (by decide) hsuccess
  have hempty : c.added ++ added = added := BoundSql.empty_append added
  rw [hempty] at hadded
  subst hadded
  exact absurd hmarks (by decide)

end Context

end SqlTemplate
