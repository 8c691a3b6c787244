import Mathlib
import SqlTemplate.Proofs.CanonicalComments
import SqlTemplate.Proofs.Scanning

/-!
# Places of faults

A fault of a text is reported with the comment at which it was found: the expression is a part of
the comment, and the line and the column are those of its opening mark. Every comment that is read
stands where its position says (`Cursor.Lexes.stands`), so a fault that shows a place points into
the text (`ErrorKind.PointsInto`), and one that names a directive points at a comment that holds it
(`fault_of_readNodes`).
-/

namespace SqlTemplate

open Text (Position trim)
open Template (commentOpening commentClosing commentText)

namespace ErrorKind

/-- The line and the column that the message shows. -/
def place? : ErrorKind → Option (Nat × Nat)
  | .unterminatedComment line column | .unclosedBlock _ line column
  | .unexpectedDirective _ line column | .malformedDirective _ line column => some (line, column)
  | _ => none

/-- The comment that the message shows. -/
def directive? : ErrorKind → Option String
  | .unclosedBlock directive _ _ | .unexpectedDirective directive _ _ => some directive
  | _ => none

/-- Only what is wrong with a text as such has a place in it. -/
theorem place?_eq_none_of_category {kind : ErrorKind} (h : kind.category ≠ .structural) :
    kind.place? = none := by
  cases kind with
  | unterminatedComment | unclosedBlock | unexpectedDirective | malformedDirective =>
      exact absurd rfl h
  | _ => rfl

/-- Where the message shows a place, an opening mark stands there in the text, and where it shows a
comment too, the comment starts there and is one of those that are read. -/
def PointsInto (kind : ErrorKind) (text : String) : Prop :=
  ∀ line column, kind.place? = some (line, column) →
    ∃ before after, before ++ commentOpening ++ after = text.toList ∧
      line = (Position.behind before).line ∧ column = (Position.behind before).column ∧
      ∀ directive, kind.directive? = some directive →
        ∃ body rest, after = body ++ commentClosing ++ rest ∧ ¬ commentClosing <:+: body ∧
          directive = String.ofList (trim body) ∧
          ∃ testValue, .comment body (.behind before) testValue ∈
            (Template.Lexeme.readAll (.ofText text)).1

theorem pointsInto_of_place?_eq_none {kind : ErrorKind} (h : kind.place? = none) (text : String) :
    kind.PointsInto text := by
  intro line column hplace
  cases h.symm.trans hplace

end ErrorKind

namespace Template

/-- The operand of a directive. -/
def Directive.operand? : Directive → Option (List Char)
  | .ifMark e | .forMark e | .nextMark e | .bind e | .embedded _ e => some e
  | _ => none

/-- The operand stands in the comment. -/
theorem Directive.isInfix_operand {body e : List Char} (h : (ofBody body).operand? = some e) :
    e <:+: body := by
  rw [ofBody] at h
  split at h
  next d hd =>
    unfold ofKeyword? at hd
    split at hd <;> cases hd <;> cases h
  next =>
    split at h
    next d hd =>
      obtain ⟨p, hp, r, rfl, rfl⟩ := append_of_findSome?_openings hd
      simp only [openings, List.mem_cons, List.not_mem_nil, or_false] at hp
      rcases hp with rfl | rfl | rfl | rfl | rfl | rfl <;> cases h
      all_goals exact (List.suffix_append _ _).isInfix
    next =>
      split at h
      next => cases h; exact List.infix_rfl
      next => cases h

namespace Cursor

variable {c : Cursor} {ls : List Lexeme} {fault : Option ErrorKind} {text before : List Char}

theorem StandsBehind.takeTestValue (h : c.StandsBehind text before) (d : Directive) :
    (c.takeTestValue d).2.StandsBehind text (before ++ (c.takeTestValue d).1) := by
  rw [Cursor.takeTestValue]
  split
  next =>
    rw [List.append_nil]
    exact h
  next extent _ => exact h.advance (testValue_append extent c.rest)

theorem StandsBehind.next {c' : Cursor} {t : Token} (h : c.StandsBehind text before)
    (hnext : c.next = .ok (t, c')) : c'.StandsBehind text (before ++ t.source) := by
  rw [eq_advance_of_next_eq_ok hnext]
  exact h.advance (source_append_of_next_eq_ok hnext)

/-- Every comment stands where its position says. -/
theorem Lexes.stands (h : c.Lexes ls fault) (hc : c.StandsBehind text before)
    {body testValue : List Char} {start : Position}
    (hmem : .comment body start testValue ∈ ls) :
    ∃ earlier, start = .behind earlier ∧ earlier ++ commentText body <+: text ∧
      ¬ commentClosing <:+: body := by
  induction h generalizing before with
  | fault => cases hmem
  | stop => cases hmem
  | text hnext _ ih =>
      rcases List.mem_cons.1 hmem with heq | hmem
      · cases heq
      · exact ih (hc.next hnext) hmem
  | comment hnext _ ih =>
      have hbehind := hc.next hnext
      rcases List.mem_cons.1 hmem with heq | hmem
      · cases heq
        exact ⟨before, hc.position_eq, ⟨_, hbehind.append_rest⟩,
          closing_not_infix_of_next_eq_comment hnext⟩
      · exact ih (hbehind.takeTestValue _) hmem

/-- What stands in a comment stands in the text. -/
theorem Lexes.isInfix_body (h : c.Lexes ls fault) (hc : c.StandsBehind text before)
    {body testValue : List Char} {start : Position}
    (hmem : .comment body start testValue ∈ ls) : body <:+: text := by
  obtain ⟨earlier, -, ⟨rest, hrest⟩, -⟩ := h.stands hc hmem
  exact ⟨earlier ++ commentOpening, commentClosing ++ rest, by simp [← hrest, commentText]⟩

/-- A fault is a comment without an end, which stands where the fault says. -/
theorem Lexes.fault_stands (h : c.Lexes ls fault) (hc : c.StandsBehind text before)
    {kind : ErrorKind} (hfault : fault = some kind) :
    ∃ earlier rest, earlier ++ commentOpening ++ rest = text ∧
      kind = .unterminatedComment (Position.behind earlier).line
        (Position.behind earlier).column := by
  induction h generalizing before with
  | fault hnext =>
      cases hfault
      obtain ⟨⟨s, hs, -⟩, rfl⟩ := next_eq_error_iff.1 hnext
      refine ⟨before, s, ?_, by rw [hc.position_eq]⟩
      rw [List.append_assoc, ← hs, hc.append_rest]
  | stop => cases hfault
  | text hnext _ ih => exact ih (hc.next hnext) hfault
  | comment hnext _ ih => exact ih ((hc.next hnext).takeTestValue _) hfault

end Cursor

end Template

section Conditions

variable {kind : ErrorKind}

theorem Condition.place?_of_markFrom_eq_error {opened : Option (List Char)} {s : List Char}
    (h : markFrom opened s = .error kind) : kind.place? = none := by
  fun_induction markFrom opened s with
  | case1 => cases h
  | case2 => cases h; rfl
  | case3 => cases h; rfl
  | case4 => cases h
  | case5 => cases h
  | case6 => cases h; rfl
  | case7 _ _ ih => exact ih (Except.map_eq_error_iff.1 h)
  | case8 _ _ _ _ ih => exact ih (Except.map_eq_error_iff.1 h)
  | case9 _ _ ih => exact ih (Except.map_eq_error_iff.1 h)
  | case10 _ _ _ _ ih => exact ih (Except.map_eq_error_iff.1 h)
  | case11 _ _ _ _ _ ih => exact ih (Except.map_eq_error_iff.1 h)

theorem Condition.place?_of_checkVisible_eq_error {s : List Char}
    (h : checkVisible s = .error kind) : kind.place? = none := by
  rw [checkVisible] at h
  split_ifs at h <;> cases h <;> rfl

theorem Term.place?_of_ofText_eq_error {s : List Char} (h : Term.ofText s = .error kind) :
    kind.place? = none := by
  rw [ofText] at h
  split at h
  next => cases h; rfl
  next =>
    split at h
    next => cases h
    next =>
      split at h
      next =>
        rw [ofQuoted] at h
        split at h <;> cases h
        rfl
      next =>
        rw [ofUnquoted] at h
        split at h
        next => split at h <;> cases h; rfl
        next =>
          dsimp only at h
          split at h <;> cases h
          rfl

theorem Clause.place?_of_ofMarks_eq_error {ms : List Condition.Mark}
    (h : Clause.ofMarks ms = .error kind) : kind.place? = none := by
  rcases Except.bind_eq_error_iff.1 h with h | ⟨k, -, h⟩
  · rw [kindOfMarks] at h
    split at h
    next =>
      rcases Except.bind_eq_error_iff.1 h with h | ⟨left, -, h⟩
      · exact Term.place?_of_ofText_eq_error h
      · rcases Except.bind_eq_error_iff.1 h with h | ⟨right, -, h⟩
        · exact Term.place?_of_ofText_eq_error h
        · cases h
    next =>
      rw [standaloneOfText.eq_def] at h
      split at h
      next => exact Term.place?_of_ofText_eq_error (Except.map_eq_error_iff.1 h)
      next => exact Term.place?_of_ofText_eq_error (Except.map_eq_error_iff.1 h)
  · cases h

/-- What is wrong with a condition has no place of its own. -/
theorem Condition.place?_of_ofText_eq_error {s : List Char}
    (h : Condition.ofText s = .error kind) : kind.place? = none := by
  rw [ofText] at h
  dsimp only at h
  split at h
  next => cases h; rfl
  next =>
    rcases Except.bind_eq_error_iff.1 h with h | ⟨marks, -, h⟩
    · exact place?_of_markFrom_eq_error h
    · rcases Except.bind_eq_error_iff.1 h with h | ⟨-, -, h⟩
      · exact place?_of_checkVisible_eq_error h
      · rcases Except.bind_eq_error_iff.1 h with h | ⟨clauses, -, h⟩
        · obtain ⟨ms, -, hms⟩ := Except.exists_mem_of_mapM_eq_error h
          exact Clause.place?_of_ofMarks_eq_error hms
        · cases h

end Conditions

namespace Template

namespace Source

variable {s : Source} {inLoop : Bool} {p : Place} {e : TemplateError}

/-- The fault is blamed on the comment: a part of it is the expression, and no other place and no
other comment is shown. -/
inductive Blames (s : Source) (p : Place) : TemplateError → Prop where
  | fail {kind expression} (hexpression : expression <:+: p.body)
      (hplace : ∀ place, kind.place? = some place → place = (p.start.line, p.start.column))
      (hdirective : ∀ directive, kind.directive? = some directive → directive = p.directive) :
      Blames s p (s.fail kind expression)

theorem blames_malformed (reason : String) : s.Blames p (s.malformed p reason) :=
  .fail List.infix_rfl (fun _ h => (Option.some.inj h).symm) fun _ h => nomatch h

theorem blames_unexpected : s.Blames p (s.unexpected p) :=
  .fail List.infix_rfl (fun _ h => (Option.some.inj h).symm) fun _ h => (Option.some.inj h).symm

/-- A fault without a place is blamed on the comment whose operand it is about. -/
theorem blames_of_place?_eq_none {kind : ErrorKind} {operand : List Char}
    (h : kind.place? = none) (hoperand : operand <:+: p.body) :
    s.Blames p (s.fail kind (trim operand)) := by
  refine .fail ((Text.isInfix_trim operand).trans hoperand) ?_ ?_
  · intro place hplace
    cases h.symm.trans hplace
  · intro directive hdirective
    cases kind with
    | unclosedBlock | unexpectedDirective => cases h
    | _ => cases hdirective

theorem blames_of_mapError {α : Type} {r : Except String α}
    (h : r.mapError (s.malformed p) = .error e) : s.Blames p e := by
  obtain ⟨reason, -, rfl⟩ := Except.mapError_eq_error_iff.1 h
  exact blames_malformed reason

theorem blames_of_readPath {operand : List Char} (hoperand : operand <:+: p.body)
    (h : s.readPath inLoop p operand = .error e) : s.Blames p e := by
  rcases Except.bind_eq_error_iff.1 h with h | ⟨⟨t, o⟩, -, h⟩
  · exact blames_of_mapError h
  · rcases Except.bind_eq_error_iff.1 h with h | ⟨q, -, h⟩
    · exact blames_of_mapError h
    · split at h
      next =>
        cases h
        exact blames_of_place?_eq_none rfl hoperand
      next =>
        split at h
        next =>
          cases h
          exact blames_malformed _
        next => cases h

theorem blames_of_readVariable {operand testValue : List Char} (hoperand : operand <:+: p.body)
    (h : s.readVariable inLoop p operand testValue = .error e) : s.Blames p e := by
  rcases Except.bind_eq_error_iff.1 h with h | ⟨q, -, h⟩
  · exact blames_of_readPath hoperand h
  · cases h

theorem blames_of_readCondition {operand : List Char} (hoperand : operand <:+: p.body)
    (h : s.readCondition inLoop operand = .error e) : s.Blames p e := by
  rcases Except.bind_eq_error_iff.1 h with h | ⟨c, -, h⟩
  · obtain ⟨kind, hkind, rfl⟩ := Except.mapError_eq_error_iff.1 h
    exact blames_of_place?_eq_none (Condition.place?_of_ofText_eq_error hkind) hoperand
  · split at h
    next =>
      cases h
      exact blames_of_place?_eq_none rfl hoperand
    next => cases h

/-- A comment that cannot be read is blamed for it. -/
theorem blames_of_item {testValue : List Char} (h : s.item inLoop p testValue = .error e) :
    s.Blames p e := by
  have hoperand : ∀ operand, (Directive.ofBody p.body).operand? = some operand →
      operand <:+: p.body := fun _ => Directive.isInfix_operand
  rw [item_eq_error_iff] at h
  generalize Directive.ofBody p.body = d at h hoperand
  cases h with
  | ifMark h => exact blames_of_readCondition (hoperand _ rfl) h
  | bind h | embedded h => exact blames_of_readVariable (hoperand _ rfl) h
  | forMark h => exact blames_of_readPath (hoperand _ rfl) h
  | notLike | unquoted => exact blames_malformed _
  | firstMark | lastMark | nextMark => exact blames_unexpected

/-- What keeps the descent from going on is the fault that ends the lexemes, or it is blamed on a
comment among them or on that of the block. -/
theorem Fails.blames {block : Option OpenBlock} {ls all : List Lexeme}
    (h : s.Fails inLoop block ls e) (hls : ls ⊆ all)
    (hblock : ∀ b ∈ block, ∃ testValue, .comment b.place.body b.place.start testValue ∈ all) :
    (∃ kind, s.fault = some kind ∧ e = s.fail kind []) ∨
      ∃ p testValue, .comment p.body p.start testValue ∈ all ∧ s.Blames p e := by
  induction h with
  | fault hfault => exact .inl ⟨_, hfault, rfl⟩
  | @unclosed _ b =>
      obtain ⟨testValue, hmem⟩ := hblock b rfl
      refine .inr ⟨b.place, testValue, hmem, .fail (Text.isInfix_trim _) ?_ ?_⟩
      · exact fun _ h => (Option.some.inj h).symm
      · exact fun _ h => (Option.some.inj h).symm
  | text _ ih => exact ih (List.subset_of_cons_subset hls) hblock
  | item hitem => exact .inr ⟨_, _, hls List.mem_cons_self, blames_of_item hitem⟩
  | node _ _ ih => exact ih (List.subset_of_cons_subset hls) hblock
  | @unexpected _ _ body start testValue =>
      exact .inr ⟨⟨body, start⟩, testValue, hls List.mem_cons_self, blames_unexpected⟩
  | part _ _ ih =>
      refine ih (List.subset_of_cons_subset hls) ?_
      rintro b ⟨⟩
      exact ⟨_, hls List.mem_cons_self⟩
  | second _ _ hpart _ ih =>
      refine ih (List.Subset.trans hpart.isSuffix.subset (List.subset_of_cons_subset hls)) ?_
      rintro b ⟨⟩
      exact ⟨_, hls List.mem_cons_self⟩
  | behindBlock _ hpart _ ih =>
      exact ih (List.Subset.trans hpart.isSuffix.subset (List.subset_of_cons_subset hls)) hblock
  | behindParts _ _ hpart hsecond _ ih =>
      have hparts := List.Subset.trans hsecond.isSuffix.subset hpart.isSuffix.subset
      exact ih (List.Subset.trans hparts (List.subset_of_cons_subset hls)) hblock

end Source

/-- A text that cannot be read is named by the error, which shows no arguments, and what the error
shows of the text stands there. -/
theorem fault_of_readNodes {text : String} {inLoop : Bool} {e : TemplateError}
    (h : readNodes text inLoop = .error e) :
    ∃ kind expression, e = .structural kind expression text ∧
      expression.toList <:+: text.toList ∧ kind.PointsInto text := by
  have hlexes := Cursor.lexes_readAll (.ofText text)
  have hstands := Cursor.standsBehind_ofText text
  rcases Except.bind_eq_error_iff.1 h with h | ⟨whole, -, h⟩
  · have hfails := Source.fails_of_sequence_eq_error h
    rcases hfails.blames (List.Subset.refl _) fun _ h => nomatch h with
      ⟨kind, hfault, rfl⟩ | ⟨p, testValue, hmem, hblames⟩
    · obtain ⟨before, after, happend, rfl⟩ := hlexes.fault_stands hstands hfault
      refine ⟨_, _, rfl, List.nil_infix, ?_⟩
      rintro line column ⟨⟩
      exact ⟨before, after, happend, rfl, rfl, fun _ h => nomatch h⟩
    · obtain ⟨before, hstart, ⟨rest, hrest⟩, hclosing⟩ := hlexes.stands hstands hmem
      obtain ⟨hexpression, hplace, hdirective⟩ := hblames
      refine ⟨_, _, rfl, ?_, ?_⟩
      · rw [String.toList_ofList]
        exact hexpression.trans (hlexes.isInfix_body hstands hmem)
      · intro line column hline
        obtain ⟨rfl, rfl⟩ := Prod.mk.inj (hplace _ hline)
        refine ⟨before, p.body ++ commentClosing ++ rest, ?_, ?_, ?_, ?_⟩
        · simp [← hrest, commentText]
        · rw [hstart]
        · rw [hstart]
        · intro directive hd
          refine ⟨p.body, rest, rfl, hclosing, hdirective _ hd, testValue, ?_⟩
          rwa [← hstart]
  · cases h

end Template

end SqlTemplate
