import SqlTemplate.Evaluation.Context
import SqlTemplate.Proofs.NodeTrace

/-!
# Placeholders

What the question marks of the SQL stand for. Every piece that an evaluation adds is safe
(`isSafe_of_mem_traceNodes`): a question mark is a placeholder with its value, or it stands
in a text of a template. So the question marks of a whole template are counted by its values
and its texts, and the placeholders stand in the order of the values
(`evaluate_eq_ofPieces`).

An embedded variable may add question marks without values in one way only: by texts of the
template that its value is (`embed_marks`). The values that are embedded as they are hold
none.
-/

namespace SqlTemplate

namespace Template

/-- What nodes add is safe if embedded text is. -/
theorem Node.isSafe_of_mem_traceAll {embedding : Variable.PieceEmbedding}
    {env : Environment} (hescape : env.config.likeEscape ≠ '?')
    (h : ∀ loops v r text ps, embedding loops v r text = .ok ps → ∀ p ∈ ps, p.IsSafe)
    (loops : List Loop) (enabled : Bool) (ns : List Node) :
    ∀ p ∈ (traceAll embedding env loops enabled ns).pieces, p.IsSafe := by
  have hgives : Variable.Gives embedding env fun ps => ∀ p ∈ ps, p.IsSafe := {
    bound := fun v loops ps => Variable.isSafe_of_boundPieces hescape
    embedded := fun v mode loops ps => Variable.isSafe_of_embeddedPieces hescape (h loops v) }
  exact (possible_traceAll hgives loops enabled ns).forall_mem_pieces
    (fun s => trivial) (fun word => trivial)

/-- Embedded text adds safe pieces only, at every level. -/
theorem isSafe_of_embeddingPieces {levels : Nat} {env : Environment} {loops : List Loop}
    {v : Variable} {r : Resolved} {text : String} {ps : List Piece}
    (hescape : env.config.likeEscape ≠ '?')
    (h : embeddingPieces levels env loops v r text = .ok ps) : ∀ p ∈ ps, p.IsSafe := by
  induction levels generalizing env loops v r text ps with
  | zero => cases h
  | succ levels ih =>
      obtain ⟨ns, -, hns⟩ := Except.bind_eq_ok_iff.1 h
      obtain ⟨-, rfl⟩ := Trace.toResult_eq_ok_iff.1 hns
      have hnested : (env.nested (embeddedArguments v r) text).config.likeEscape ≠ '?' := hescape
      exact Node.isSafe_of_mem_traceAll hnested (fun _ _ _ _ _ => ih hnested) loops true ns

/-- What nodes add is safe, in whatever texts they are embedded. -/
theorem isSafe_of_mem_traceNodes {env : Environment}
    (hescape : env.config.likeEscape ≠ '?') (loops : List Loop) (enabled : Bool)
    (ns : List Node) : ∀ p ∈ (traceNodes env loops enabled ns).pieces, p.IsSafe :=
  Node.isSafe_of_mem_traceAll hescape (fun _ _ _ _ _ => isSafe_of_embeddingPieces hescape)
    loops enabled ns

/-- The SQL of a template is put together from pieces. Every value has a type; the question
marks are one for each value and those of the literal texts; and the value at each place is
that of the placeholder at this place. -/
theorem evaluate_eq_ofPieces {t : Template} {arguments : Arguments} {config : Config}
    {q : BoundSql} (hescape : config.likeEscape ≠ '?')
    (h : t.evaluate arguments config = .ok q) :
    ∃ ps, t.pieces arguments config = .ok ps ∧ q = .ofPieces ps ∧
      q.types.length = q.values.length ∧
      marks q.sql = q.values.length + Piece.literalMarks ps ∧
      ∀ k v type, q.values[k]? = some v → q.types[k]? = some type →
        ∃ before after, ps = before ++ .placeholder v type :: after ∧
          (BoundSql.ofPieces before).values.length = k ∧
          q.sql = (BoundSql.ofPieces before).sql ++ "?" ++ (BoundSql.ofPieces after).sql := by
  rw [← map_pieces, Except.map_eq_ok_iff] at h
  obtain ⟨ps, hps, rfl⟩ := h
  have hsafe : ∀ p ∈ ps, p.IsSafe := by
    obtain ⟨-, rfl⟩ := Trace.toResult_eq_ok_iff.1 hps
    let env : Environment := ⟨arguments, config, t.source, 0⟩
    have henv : env.config.likeEscape ≠ '?' := hescape
    exact isSafe_of_mem_traceNodes henv [] true t.nodes
  refine ⟨ps, hps, rfl, BoundSql.length_types_ofPieces ps, BoundSql.marks_ofPieces hsafe, ?_⟩
  intro k v type hv ht
  obtain ⟨before, after, hps, hlen⟩ := BoundSql.exists_placeholder hv ht
  refine ⟨before, after, hps, hlen, ?_⟩
  rw [hps, BoundSql.ofPieces_append, BoundSql.ofPieces_cons, BoundSql.append_sql,
    BoundSql.append_sql, String.append_assoc]
  rfl

/-- A list, a loop, a block and an embedded template: five values, and two question marks
in texts. -/
theorem evaluate_eq_ofPieces_nested :
    let config : Config := {}
    let ids : Variable := ⟨"ids", ⟨.argument "ids", []⟩, .none, "(1)"⟩
    let t : Template := ⟨"a = '?'/*BEGIN*/ where /*IF ids != null*/ and b in /*ids*/(1)/*END*/" ++
        "/*END*//*FOR ids*//*NEXT ', '*//*#current*/0/*END*//*$q*/x", [
      .text "a = '?'",
      .block [
        .text " where ",
        .ifBlock ⟨"ids != null", .and,
            [⟨"ids != null", .comparison (.path ids.path) .ne .null⟩]⟩
          [.connector " and " "b in ", .bind ids] none],
      .forBlock "ids" ids.path .none [
        .separator ", ",
        .bind ⟨"#current", ⟨.loop, []⟩, .none, "0"⟩],
      .embedded ⟨"q", ⟨.argument "q", []⟩, .none, "x"⟩ .normal]⟩
    let arguments : Arguments :=
      ⟨[("ids", .list [.int32 1, .null, .int32 2]), ("q", .string "? /* c */")], []⟩
    let q : BoundSql := ⟨"a = '?' where b in (?, ?)?, ?, ?? /* c */",
      [.int32 1, .int32 2, .int32 1, .null, .int32 2],
      [.integer, .integer, .integer, .unknown, .integer]⟩
    config.likeEscape ≠ '?' ∧ t.evaluate arguments config = .ok q ∧
      ∃ ps, t.pieces arguments config = .ok ps ∧ q = .ofPieces ps ∧
        Piece.literalMarks ps = 2 := by
  intro config ids t arguments q
  have hescape : config.likeEscape ≠ '?' := by decide
  have hsuccess : t.evaluate arguments config = .ok q := by cbv
  obtain ⟨ps, hps, hq, -, hmarks, -⟩ := evaluate_eq_ofPieces hescape hsuccess
  have hsql : marks q.sql = 7 := by decide
  have hvalues : q.values.length = 5 := rfl
  refine ⟨hescape, hsuccess, ps, hps, hq, ?_⟩
  omega

end Template

end SqlTemplate
