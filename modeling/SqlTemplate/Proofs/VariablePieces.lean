import SqlTemplate.Evaluation.Variable
import SqlTemplate.Proofs.Piece
import SqlTemplate.Proofs.Result

/-!
# Variables in pieces

What a bound or embedded variable gives, as a list of pieces. Putting the pieces together
gives the SQL of `Variable.bound` and `Variable.embedded` back, errors included
(`map_boundPieces`, `map_embeddedPieces`).

A variable inserts no question mark of its own: the text of a value is refused if it holds
one, and the escape clause holds one only if the escape character is one. What becomes of
embedded text with directives is a parameter, here as in the evaluation.
-/

namespace SqlTemplate.Template.Variable

/-- What becomes of embedded text with directives, in pieces. -/
abbrev PieceEmbedding :=
  List Loop → Variable → Resolved → String → Except TemplateError (List Piece)

/-- The pieces of embedded text are its SQL. -/
def PieceEmbedding.IsOf (pieces : PieceEmbedding) (embedding : Embedding) : Prop :=
  ∀ loops v r text, (pieces loops v r text).map .ofPieces = embedding loops v r text

/-- The escape clause of a pattern. -/
def rearPieces (r : Resolved) (env : Environment) : List Piece :=
  (r.rear? env.config.likeEscape).toList.map .inserted

/-- What a bound variable gives. -/
def boundPieces (v : Variable) (env : Environment) (loops : List Loop) :
    Except TemplateError (List Piece) := do
  let r ← v.resolve env loops
  if v.inScope then
    let present ← (elements r.target).mapError (v.fail env)
    return Piece.listed (present.map fun w => .placeholder w w.type)
  else
    let w ← (scalar r.target).mapError (v.fail env)
    return .placeholder w r.targetType :: rearPieces r env

/-- What an embedded variable gives. -/
def embeddedPieces (embedding : PieceEmbedding) (v : Variable) (mode : EmbeddedMode)
    (env : Environment) (loops : List Loop) : Except TemplateError (List Piece) := do
  let r ← v.resolve env loops
  if v.inScope then
    let present ← (elements r.target).mapError (v.fail env)
    let quoted := mode != .replaceOnly && (firstElement? v.testValue.toList).any isQuoted
    let parts ← (present.mapM (embeddedText quoted)).mapError (v.fail env)
    return Piece.listed (parts.map .inserted)
  else
    let w ← (scalar r.target).mapError (v.fail env)
    match w.asString?.filter hasComment with
    | some text => embedding loops v r text
    | none =>
      let quoted := mode == .normal && isQuoted v.testValue.toList
      let s ← (embeddedText quoted w).mapError (v.fail env)
      return .inserted s :: rearPieces r env

/-- What variables give in an environment has a property. -/
structure Gives (pieces : PieceEmbedding) (env : Environment)
    (Given : List Piece → Prop) : Prop where
  bound : ∀ (v : Variable) (loops : List Loop) (ps : List Piece),
    v.boundPieces env loops = .ok ps → Given ps
  embedded : ∀ (v : Variable) (mode : EmbeddedMode) (loops : List Loop) (ps : List Piece),
    v.embeddedPieces pieces mode env loops = .ok ps → Given ps

theorem gives_true (pieces : PieceEmbedding) (env : Environment) :
    Gives pieces env fun _ => True where
  bound := fun _ _ _ _ => trivial
  embedded := fun _ _ _ _ _ => trivial

theorem withRear_eq_append (sql : BoundSql) (r : Resolved) (env : Environment) :
    withRear sql r env = sql ++ .ofPieces (rearPieces r env) := by
  cases h : r.rear? env.config.likeEscape with
  | none => simp [withRear, rearPieces, h]
  | some rear => simp [withRear, rearPieces, h, BoundSql.ofPieces_singleton, Piece.sql]

theorem ofPieces_listed_placeholders (ws : List Value) :
    BoundSql.ofPieces (Piece.listed (ws.map fun w => .placeholder w w.type)) =
      .ofValues ws := by
  rw [BoundSql.ofPieces_listed, List.map_map, List.flatMap_map, List.flatMap_map]
  have htypes : (ws.flatMap fun w => [w.type]) = ws.map Value.type :=
    List.map_eq_flatMap.symm
  simp [BoundSql.ofValues, Piece.sql, BoundSql.ofValue, Function.comp_def, htypes]

theorem ofPieces_listed_inserted (parts : List String) :
    BoundSql.ofPieces (Piece.listed (parts.map .inserted)) =
      .ofSql (BoundSql.listed parts) := by
  rw [BoundSql.ofPieces_listed]
  simp [Piece.sql, BoundSql.ofSql, Function.comp_def, List.flatMap_map]

/-- The pieces of a bound variable are its SQL. -/
theorem map_boundPieces (v : Variable) (env : Environment) (loops : List Loop) :
    (v.boundPieces env loops).map .ofPieces = v.bound env loops := by
  unfold boundPieces bound
  cases v.resolve env loops with
  | error e => rfl
  | ok r =>
      cases v.inScope with
      | true =>
          cases h : elements r.target with
          | error kind => simp [h, bind, Except.bind, Except.mapError, Except.map]
          | ok present =>
              simp [h, bind, Except.bind, Except.mapError, Except.map, pure, Except.pure,
                ofPieces_listed_placeholders]
      | false =>
          cases h : scalar r.target with
          | error kind => simp [h, bind, Except.bind, Except.mapError, Except.map]
          | ok w =>
              simp [h, bind, Except.bind, Except.mapError, Except.map, pure, Except.pure,
                withRear_eq_append, BoundSql.ofPieces_cons, Piece.sql]

/-- The pieces of an embedded variable are its SQL, if those of embedded text are. -/
theorem map_embeddedPieces {pieces : PieceEmbedding} {embedding : Embedding}
    (h : pieces.IsOf embedding) (v : Variable) (mode : EmbeddedMode) (env : Environment)
    (loops : List Loop) :
    (v.embeddedPieces pieces mode env loops).map .ofPieces =
      v.embedded embedding mode env loops := by
  unfold embeddedPieces embedded
  cases v.resolve env loops with
  | error e => rfl
  | ok r =>
      cases v.inScope with
      | true =>
          cases he : elements r.target with
          | error kind => simp [he, bind, Except.bind, Except.mapError, Except.map]
          | ok present =>
              cases hp : present.mapM (embeddedText (mode != .replaceOnly &&
                (firstElement? v.testValue.toList).any isQuoted)) with
              | error kind => simp [he, hp, bind, Except.bind, Except.mapError, Except.map]
              | ok parts =>
                  simp [he, hp, bind, Except.bind, Except.mapError, Except.map, pure,
                    Except.pure, ofPieces_listed_inserted]
      | false =>
          cases hs : scalar r.target with
          | error kind => simp [hs, bind, Except.bind, Except.mapError, Except.map]
          | ok w =>
              cases hw : w.asString?.filter hasComment with
              | some text =>
                  simpa [hs, hw, bind, Except.bind, Except.mapError] using h loops v r text
              | none =>
                  cases ht : embeddedText (mode == .normal && isQuoted v.testValue.toList)
                      w with
                  | error kind =>
                      simp [hs, hw, ht, bind, Except.bind, Except.mapError, Except.map]
                  | ok s =>
                      simp [hs, hw, ht, bind, Except.bind, Except.mapError, Except.map,
                        pure, Except.pure, withRear_eq_append, BoundSql.ofPieces_cons,
                        Piece.sql]

theorem mem_of_mem_intersperse {sep p : Piece} {ps : List Piece}
    (h : p ∈ ps.intersperse sep) : p = sep ∨ p ∈ ps := by
  induction ps with
  | nil => exact .inr h
  | cons a ps ih =>
      cases ps with
      | nil => exact .inr h
      | cons b ps =>
          rw [List.intersperse_cons_cons, List.mem_cons, List.mem_cons] at h
          rcases h with rfl | rfl | h
          · exact .inr List.mem_cons_self
          · exact .inl rfl
          · rcases ih h with h | h
            · exact .inl h
            · exact .inr (List.mem_cons_of_mem a h)

/-- The marks of a list. -/
def listMarks : List String := ["(", ", ", ")"]

/-- A list adds its marks to its pieces. -/
theorem mem_or_inserted_of_mem_listed {p : Piece} {ps : List Piece}
    (h : p ∈ Piece.listed ps) : p ∈ ps ∨ ∃ s ∈ listMarks, p = .inserted s := by
  rw [Piece.listed, List.mem_cons, List.mem_append, List.mem_singleton] at h
  rcases h with rfl | h | rfl
  · exact .inr ⟨"(", by decide, rfl⟩
  · rcases mem_of_mem_intersperse h with rfl | h
    · exact .inr ⟨", ", by decide, rfl⟩
    · exact .inl h
  · exact .inr ⟨")", by decide, rfl⟩

/-- A bound variable adds placeholders, the marks of a list and the escape clause of a pattern. -/
theorem boundPieces_cases {v : Variable} {env : Environment} {loops : List Loop}
    {ps : List Piece} (h : v.boundPieces env loops = .ok ps) {p : Piece} (hp : p ∈ ps) :
    (∃ w type, p = .placeholder w type) ∨
      ∃ s ∈ Like.escapeClause env.config.likeEscape :: listMarks, p = .inserted s := by
  obtain ⟨r, -, h⟩ := Except.bind_eq_ok_iff.1 h
  split at h
  next =>
    obtain ⟨present, -, h⟩ := Except.bind_eq_ok_iff.1 h
    cases h
    rcases mem_or_inserted_of_mem_listed hp with hp | ⟨s, hs, rfl⟩
    · obtain ⟨w, -, rfl⟩ := List.mem_map.1 hp
      exact .inl ⟨w, w.type, rfl⟩
    · exact .inr ⟨s, List.mem_cons_of_mem _ hs, rfl⟩
  next =>
    obtain ⟨w, -, h⟩ := Except.bind_eq_ok_iff.1 h
    cases h
    rcases List.mem_cons.1 hp with rfl | hp
    · exact .inl ⟨w, r.targetType, rfl⟩
    · obtain ⟨s, hs, rfl⟩ := List.mem_map.1 hp
      obtain ⟨like, -, rfl⟩ := Option.map_eq_some_iff.1 (Option.mem_toList.1 hs)
      exact .inr ⟨_, List.mem_cons_self, rfl⟩

/-- A bound variable adds no text of a template. -/
theorem literal?_eq_none_of_mem_boundPieces {v : Variable} {env : Environment}
    {loops : List Loop} {ps : List Piece} (h : v.boundPieces env loops = .ok ps) {p : Piece}
    (hp : p ∈ ps) : p.literal? = none := by
  rcases boundPieces_cases h hp with ⟨w, type, rfl⟩ | ⟨s, -, rfl⟩
  · rfl
  · rfl

theorem marks_eq_zero_of_mem_listMarks {s : String} (h : s ∈ listMarks) : marks s = 0 := by
  rw [listMarks, List.mem_cons, List.mem_cons, List.mem_singleton] at h
  rcases h with rfl | rfl | rfl <;> decide

theorem marks_escapeClause {escape : Char} (h : escape ≠ '?') :
    marks (Like.escapeClause escape) = 0 := by
  simp [Like.escapeClause, marks, h]

theorem isSafe_of_mem_listed {ps : List Piece} (h : ∀ p ∈ ps, p.IsSafe) {p : Piece}
    (hp : p ∈ Piece.listed ps) : p.IsSafe := by
  rcases mem_or_inserted_of_mem_listed hp with hp | ⟨s, hs, rfl⟩
  · exact h p hp
  · exact marks_eq_zero_of_mem_listMarks hs

theorem isSafe_of_mem_rearPieces {r : Resolved} {env : Environment}
    (hescape : env.config.likeEscape ≠ '?') {p : Piece} (hp : p ∈ rearPieces r env) :
    p.IsSafe := by
  cases hl : r.like with
  | none => simp [rearPieces, Resolved.rear?, hl] at hp
  | some like =>
      simp only [rearPieces, Resolved.rear?, hl, Option.map_some, Option.toList_some,
        List.map_cons, List.map_nil, List.mem_singleton] at hp
      subst hp
      exact marks_escapeClause hescape

/-- Quoting adds quote marks only. -/
theorem marks_sqlQuote (s : String) : marks (Text.sqlQuote s) = marks s := by
  have hq : Text.quoteMark ≠ '?' := by decide
  have hdouble : ∀ t : List Char, (Text.double t).count '?' = t.count '?' := by
    intro t
    induction t with
    | nil => rfl
    | cons c t ih =>
        by_cases hc : c = Text.quoteMark
        · rw [Text.double, if_pos hc, hc]
          simp only [List.count_cons_of_ne hq, ih]
        · rw [Text.double, if_neg hc, List.count_cons, List.count_cons, ih]
  rw [marks, Text.sqlQuote, String.toList_ofList, Text.quote, List.count_cons_of_ne hq,
    List.count_append, hdouble, List.count_cons_of_ne hq, List.count_nil, Nat.add_zero, marks]

theorem marks_of_embeddedText_eq_ok {quoted : Bool} {w : Value} {s : String}
    (h : embeddedText quoted w = .ok s) : marks s = 0 := by
  rw [embeddedText] at h
  split at h
  next => cases h
  next hmark =>
    have hw : marks w.text = 0 := by
      rw [marks_eq_zero_iff]
      simpa using hmark
    split at h
    next =>
      cases h
      rw [marks_sqlQuote, hw]
    next =>
      cases h
      exact hw

/-- A bound variable inserts no question mark. -/
theorem isSafe_of_boundPieces {v : Variable} {env : Environment} {loops : List Loop}
    {ps : List Piece} (hescape : env.config.likeEscape ≠ '?')
    (h : v.boundPieces env loops = .ok ps) : ∀ p ∈ ps, p.IsSafe := by
  intro p hp
  rcases boundPieces_cases h hp with ⟨w, type, rfl⟩ | ⟨s, hs, rfl⟩
  · trivial
  · rcases List.mem_cons.1 hs with rfl | hs
    · exact marks_escapeClause hescape
    · exact marks_eq_zero_of_mem_listMarks hs

/-- An embedded variable inserts no question mark, if embedded text does not. -/
theorem isSafe_of_embeddedPieces {pieces : PieceEmbedding} {v : Variable}
    {mode : EmbeddedMode} {env : Environment} {loops : List Loop} {ps : List Piece}
    (hescape : env.config.likeEscape ≠ '?')
    (hpieces : ∀ r text qs, pieces loops v r text = .ok qs → ∀ p ∈ qs, p.IsSafe)
    (h : v.embeddedPieces pieces mode env loops = .ok ps) : ∀ p ∈ ps, p.IsSafe := by
  obtain ⟨r, -, h⟩ := Except.bind_eq_ok_iff.1 h
  split at h
  next =>
    obtain ⟨present, -, h⟩ := Except.bind_eq_ok_iff.1 h
    obtain ⟨parts, hparts, h⟩ := Except.bind_eq_ok_iff.1 h
    cases h
    intro p hp
    refine isSafe_of_mem_listed ?_ hp
    intro q hq
    obtain ⟨s, hs, rfl⟩ := List.mem_map.1 hq
    obtain ⟨w, -, hw⟩ :=
      Except.exists_mem_of_mapM_eq_ok (Except.mapError_eq_ok_iff.1 hparts) hs
    exact marks_of_embeddedText_eq_ok hw
  next =>
    obtain ⟨w, -, h⟩ := Except.bind_eq_ok_iff.1 h
    split at h
    next text _ => exact hpieces r text ps h
    next =>
      obtain ⟨s, hs, h⟩ := Except.bind_eq_ok_iff.1 h
      cases h
      intro p hp
      rcases List.mem_cons.1 hp with rfl | hp
      · exact marks_of_embeddedText_eq_ok (Except.mapError_eq_ok_iff.1 hs)
      · exact isSafe_of_mem_rearPieces hescape hp

end SqlTemplate.Template.Variable
