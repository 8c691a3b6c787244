import Mathlib
import SqlTemplate.Proofs.CanonicalComments
import SqlTemplate.Proofs.QuotedElements
import SqlTemplate.Proofs.WrittenTerms

/-!
# Readers of literals

A string is quoted by one function, and literals are read in five places: as the text of a NEXT
comment, as a term of a condition, where operators are looked for in a condition, where a test value
decides whether what is embedded is quoted, and where a test value is cut off. Each of them has its
own way with quote marks that stand twice. On a quoted string they agree, wherever quote marks are in
the string (`Text.readers_sqlQuote`): the two that give a string give the one that was quoted, and
the others take the text for one literal, with nothing of it left over.
-/

namespace SqlTemplate

open Text (quote quoteMark)

/-- Of a literal the quote marks around it are visible, and nothing in it. -/
theorem Condition.visibleChars_literalMarks (s : List Char) :
    visibleChars (literalMarks s) =
      quoteMark :: (List.replicate (Text.double s).length '_' ++ [quoteMark]) := by
  have hcontent : visibleChars (contentMarks s) =
      List.replicate (Text.double s).length '_' := by
    rw [visibleChars, contentMarks, List.map_map]
    exact List.map_const'
  rw [literalMarks, visibleChars_cons, visibleChars_append, hcontent]
  rfl

/-- A quoted text is marked as one literal. -/
theorem Condition.markLiterals_quote (s : List Char) :
    markLiterals (quote s) = .ok (literalMarks s) :=
  markLiterals_eq_ok_iff.2 ⟨marked_literalMarks s, chars_literalMarks s⟩

namespace Template

theorem Variable.isQuoted_quote (s : List Char) : isQuoted (quote s) = true := by
  have hmark : Text.isBlank quoteMark = false := by decide
  rw [quote, isQuoted_quoteMark_cons, Text.trimEnd_append_cons hmark, Text.trimEnd_nil,
    List.getLast?_concat]
  exact beq_self_eq_true _

/-- A quoted text is cut off as a test value, if no other quote mark follows it. -/
theorem testValue_quote_append (extent : Extent) (s : List Char) {rest : List Char}
    (h : rest.head? ≠ some quoteMark) : testValue extent (quote s ++ rest) = (quote s, rest) := by
  rw [quote, List.cons_append, List.append_assoc, List.singleton_append, testValue, if_pos rfl,
    Text.literalTail_double_append h]

end Template

/-- Whatever is quoted, all readers of literals read it: as the text of a NEXT comment, as a term, as
a literal whose content is hidden, as a quoted test value, and as a test value to be cut off. -/
theorem Text.readers_sqlQuote (s : String) :
    Template.Source.quoted? (sqlQuote s).toList = some s.toList ∧
    Term.ofText (sqlQuote s).toList = .ok (.string s) ∧
    (∃ marks, Condition.markLiterals (sqlQuote s).toList = .ok marks ∧
      Condition.visibleChars marks =
        quoteMark :: (List.replicate (double s.toList).length '_' ++ [quoteMark])) ∧
    Template.Variable.isQuoted (sqlQuote s).toList = true ∧
    (∀ (c : Template.Cursor) (extent : Template.Extent) (rest : List Char),
      c.rest = (sqlQuote s).toList ++ rest → rest.head? ≠ some quoteMark →
        c.testValue extent = ((sqlQuote s).toList, c.advance (sqlQuote s).toList rest)) := by
  have htext : (sqlQuote s).toList = quote s.toList := String.toList_ofList
  rw [htext]
  refine ⟨Template.quoted?_quote s.toList, Term.ofText_of_isWritten (.string s),
    ⟨_, Condition.markLiterals_quote s.toList, Condition.visibleChars_literalMarks s.toList⟩,
    Template.Variable.isQuoted_quote s.toList, fun c extent rest hrest hhead => ?_⟩
  rw [Template.Cursor.testValue, hrest, Template.testValue_quote_append extent s.toList hhead]

/-- Of quote marks in a row the last one closes the literal, and all of them are cut off. -/
theorem Text.readers_sqlQuote_quoteMarks :
    let c : Template.Cursor := .ofText "'''''' and"
    sqlQuote "''" = "''''''" ∧ c.rest = (sqlQuote "''").toList ++ " and".toList ∧
      " and".toList.head? ≠ some quoteMark ∧
      c.testValue .full = ("''''''".toList, c.advance "''''''".toList " and".toList) := by
  intro c
  have hquote : sqlQuote "''" = "''''''" := by decide
  have hrest : c.rest = (sqlQuote "''").toList ++ " and".toList := by decide
  have hhead : " and".toList.head? ≠ some quoteMark := by decide
  have hread := (readers_sqlQuote "''").2.2.2.2 c .full " and".toList hrest hhead
  rw [hquote] at hread
  exact ⟨hquote, hrest, hhead, hread⟩

end SqlTemplate
