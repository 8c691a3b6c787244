import Mathlib
import SqlTemplate.Proofs.Relexing

/-!
# Texts in front of a comment

A text that is closed can be cut at its end: where a comment is put behind it, the lexemes of the
text are cut off as before, and then the comment follows (`Cursor.Lexes.exists_append`). It is
closed if its last lexeme is (`EndsClosed`). A text has to end in code, that is outside of literals
and of line comments (`TextMode.behind`), and a test value that is a literal or stands in
parentheses has to have its closing mark. A word ends in front of a comment in any case. So does a
single slash or hyphen, which begins no mark with the slash behind it.

The other lexemes of a text need no such condition. What stands behind them has ended them
already.
-/

namespace SqlTemplate.Template

open Text (quoteMark startsWith)

/-- The mode behind the first character of a text. -/
def TextMode.next (mode : TextMode) (c : Char) (s : List Char) : TextMode :=
  match mode with
  | .code =>
    if startsWith lineCommentMark (c :: s) then .lineComment
    else if c = quoteMark then .literal
    else .code
  | .literal => if c = quoteMark then .code else .literal
  | .lineComment => if c = '\n' then .code else .lineComment

/-- The mode behind a text without comments. -/
def TextMode.behind (mode : TextMode) : List Char → TextMode
  | [] => mode
  | c :: s => (mode.next c s).behind s

/-- Whether the literal is closed whose opening mark stands in front of the text. -/
def closesLiteral : List Char → Bool
  | [] => false
  | [c] => c = quoteMark
  | c :: d :: s =>
    if c = quoteMark then
      if d = quoteMark then closesLiteral s else true
    else closesLiteral (d :: s)

/-- Whether the depth comes to zero at a closing parenthesis of the text. -/
def closesParentheses (depth : Nat) (literal : Bool) : List Char → Bool
  | [] => false
  | c :: s =>
    if c = quoteMark then closesParentheses depth (!literal) s
    else if literal then closesParentheses depth literal s
    else if c = '(' then closesParentheses (depth + 1) literal s
    else if c = ')' then
      if depth ≤ 1 then true else closesParentheses (depth - 1) literal s
    else closesParentheses depth literal s

/-- Whether a test value has its closing mark, if it needs one. -/
def closesTestValue : List Char → Bool
  | [] => true
  | c :: s =>
    if c = quoteMark then closesLiteral s
    else if c = '(' then closesParentheses 0 false (c :: s)
    else true

/-- The lexeme leaves nothing open. -/
def Lexeme.IsClosed : Lexeme → Prop
  | .text s => TextMode.code.behind s.toList = .code
  | .comment _ _ testValue => closesTestValue testValue = true

/-- The text ends outside of literals, line comments and test values that are not closed. -/
def EndsClosed (text : String) : Prop :=
  ∀ l ∈ (Lexeme.readAll (.ofText text)).1.getLast?, l.IsClosed

theorem endsClosed_iff {text : String} {ls : List Lexeme} {fault : Option ErrorKind}
    (h : (Cursor.ofText text).Lexes ls fault) :
    EndsClosed text ↔ ∀ l ∈ ls.getLast?, l.IsClosed := by
  rw [EndsClosed, h.readAll_eq]

section Pieces

variable (t : List Char)

/-- A mark that does not end in a slash does not come about at the end of the text. -/
theorem startsWith_append_comment {a b : Char} (hb : b ≠ '/') (c : Char) (s : List Char) :
    startsWith [a, b] (c :: (s ++ (commentOpening ++ t))) = startsWith [a, b] (c :: s) := by
  rw [startsWith, startsWith, Text.dropStart?, Text.dropStart?]
  split
  next =>
    cases s with
    | nil => simp [Text.dropStart?, commentOpening, hb]
    | cons d s => by_cases hd : b = d <;> simp [Text.dropStart?, hd]
  next => rfl

theorem startsWith_commentOpening_append_comment (c : Char) (s : List Char) :
    startsWith commentOpening (c :: (s ++ (commentOpening ++ t))) =
      startsWith commentOpening (c :: s) :=
  startsWith_append_comment t (by decide) c s

theorem startsWith_lineCommentMark_append_comment (c : Char) (s : List Char) :
    startsWith lineCommentMark (c :: (s ++ (commentOpening ++ t))) =
      startsWith lineCommentMark (c :: s) :=
  startsWith_append_comment t (by decide) c s

theorem TextMode.next_append_comment (mode : TextMode) (c : Char) (s : List Char) :
    mode.next c (s ++ (commentOpening ++ t)) = mode.next c s := by
  cases mode with
  | code => rw [next, next, startsWith_lineCommentMark_append_comment]
  | literal | lineComment => rfl

theorem spanText_cons (mode : TextMode) (c : Char) (s : List Char) :
    spanText mode (c :: s) =
      if mode = .code ∧ startsWith commentOpening (c :: s) = true then ([], c :: s)
      else (c :: (spanText (mode.next c s) s).1, (spanText (mode.next c s) s).2) := by
  cases mode with
  | code =>
      by_cases hopen : startsWith commentOpening (c :: s) = true
      · rw [spanText, if_pos hopen, if_pos ⟨rfl, hopen⟩]
      · rw [spanText, if_neg hopen, if_neg (not_and_of_not_right _ hopen), TextMode.next]
        by_cases hline : startsWith lineCommentMark (c :: s) = true
        · rw [if_pos hline, if_pos hline]
        · rw [if_neg hline, if_neg hline]
  | literal | lineComment => rfl

theorem spanText_append_comment {mode : TextMode} {s : List Char}
    (h : (spanText mode s).2 = [] → mode.behind s = .code) :
    spanText mode (s ++ (commentOpening ++ t)) =
      ((spanText mode s).1, (spanText mode s).2 ++ (commentOpening ++ t)) := by
  induction s generalizing mode with
  | nil =>
      obtain rfl : mode = .code := h rfl
      rfl
  | cons c s ih =>
      rw [List.cons_append, spanText_cons, TextMode.next_append_comment,
        startsWith_commentOpening_append_comment]
      rw [spanText_cons] at h ⊢
      split
      next => rfl
      next hcut =>
        rw [if_neg hcut] at h
        rw [ih h]

theorem endsWord_append_comment (extent : Extent) (c : Char) (s : List Char) :
    endsWord extent (c :: (s ++ (commentOpening ++ t))) = endsWord extent (c :: s) := by
  rw [endsWord, endsWord, startsWith_commentOpening_append_comment,
    startsWith_lineCommentMark_append_comment]

/-- A word ends in front of a comment. -/
theorem spanWord_append_comment (extent : Extent) (s : List Char) :
    spanWord extent (s ++ (commentOpening ++ t)) =
      ((spanWord extent s).1, (spanWord extent s).2 ++ (commentOpening ++ t)) := by
  induction s with
  | nil => cases extent <;> rfl
  | cons c s ih =>
      rw [List.cons_append, spanWord, spanWord, endsWord_append_comment, ih]
      split <;> rfl

theorem literalTail_append_comment {s : List Char}
    (h : (Text.literalTail s).2 = [] → closesLiteral s = true) :
    Text.literalTail (s ++ (commentOpening ++ t)) =
      ((Text.literalTail s).1, (Text.literalTail s).2 ++ (commentOpening ++ t)) := by
  fun_induction Text.literalTail s with
  | case1 => cases h rfl
  | case2 c =>
      obtain rfl : c = quoteMark := of_decide_eq_true (h rfl)
      rfl
  | case3 s inside rest hs ih =>
      rw [hs] at ih
      rw [List.cons_append, List.cons_append, Text.literalTail, if_pos rfl, if_pos rfl, ih h]
  | case4 d s hd =>
      rw [List.cons_append, List.cons_append, Text.literalTail, if_pos rfl, if_neg hd]
  | case5 c d s hc inside rest hs ih =>
      have hcloses : closesLiteral (c :: d :: s) = closesLiteral (d :: s) := by
        rw [closesLiteral, if_neg hc]
      rw [hs, ← hcloses] at ih
      rw [List.cons_append, literalTail_cons_of_ne hc, ih h]

theorem spanParentheses_append_comment {depth : Nat} {literal : Bool} {s : List Char}
    (h : (spanParentheses depth literal s).2 = [] → closesParentheses depth literal s = true) :
    spanParentheses depth literal (s ++ (commentOpening ++ t)) =
      ((spanParentheses depth literal s).1,
        (spanParentheses depth literal s).2 ++ (commentOpening ++ t)) := by
  induction s generalizing depth literal with
  | nil => cases h rfl
  | cons c s ih => grind [spanParentheses, closesParentheses]

theorem testValue_append_comment {extent : Extent} {s : List Char}
    (h : (testValue extent s).2 = [] → closesTestValue s = true) :
    testValue extent (s ++ (commentOpening ++ t)) =
      ((testValue extent s).1, (testValue extent s).2 ++ (commentOpening ++ t)) := by
  cases s with
  | nil => cases extent <;> rfl
  | cons c s =>
      rw [testValue, closesTestValue] at h
      rw [List.cons_append, testValue, testValue]
      by_cases hquote : c = quoteMark
      · simp only [if_pos hquote] at h ⊢
        rw [literalTail_append_comment t h]
      · by_cases hopen : c = '('
        · simp only [if_neg hquote, if_pos hopen] at h ⊢
          exact spanParentheses_append_comment t h
        · simp only [if_neg hquote, if_neg hopen]
          exact spanWord_append_comment t extent (c :: s)

end Pieces

namespace Cursor

variable {c c' c₁ : Cursor} {t : List Char}

/-- A text is a token of its own in front of what followed it, with a comment behind all that. -/
theorem next_text_append_comment {s : String} (h : c.next = .ok (.text s, c₁))
    (hclosed : c₁.rest = [] → TextMode.code.behind s.toList = .code)
    (hc' : c'.rest = c.rest ++ (commentOpening ++ t)) :
    c'.next = .ok (.text s, c'.advance s.toList (c₁.rest ++ (commentOpening ++ t))) := by
  have hlossless : s.toList ++ c₁.rest = c.rest := source_append_of_next_eq_ok h
  obtain ⟨hdrop, hne, hspan⟩ := spanText_of_next_eq_text h
  obtain ⟨d, u, hd⟩ := List.exists_cons_of_ne_nil hne
  have hspan' : spanText .code c'.rest = (s.toList, c₁.rest ++ (commentOpening ++ t)) := by
    have hbehind : (spanText .code c.rest).2 = [] → TextMode.code.behind c.rest = .code := by
      rw [hspan, ← hlossless]
      intro hnil
      have hnil : c₁.rest = [] := hnil
      rw [hnil, List.append_nil]
      exact hclosed hnil
    rw [hc', spanText_append_comment t hbehind, hspan]
  have hdrop' : Text.dropStart? commentOpening c'.rest = none := by
    have hopen := startsWith_commentOpening_append_comment t d u
    rw [← List.cons_append, ← hd, ← hc', startsWith, startsWith, hdrop] at hopen
    simpa using hopen
  have hne' : c'.rest ≠ [] := by
    rw [hc', hd]
    exact List.cons_ne_nil d _
  rw [next, hdrop']
  dsimp only
  rw [if_neg hne', hspan', String.ofList_toList]

theorem next_comment_append {body : String} (h : c.next = .ok (.comment body, c₁))
    (hc' : c'.rest = c.rest ++ t) :
    c'.next = .ok (.comment body, c'.advance (commentText body.toList) (c₁.rest ++ t)) := by
  have hlossless : commentText body.toList ++ c₁.rest = c.rest := source_append_of_next_eq_ok h
  rw [← hlossless, List.append_assoc] at hc'
  have hnext := next_of_closing_not_infix (closing_not_infix_of_next_eq_comment h) hc'
  rwa [String.ofList_toList] at hnext

theorem takeTestValue_append_comment {d : Directive}
    (hclosed : (c.takeTestValue d).2.rest = [] → closesTestValue (c.takeTestValue d).1 = true)
    (hc' : c'.rest = c.rest ++ (commentOpening ++ t)) :
    (c'.takeTestValue d).1 = (c.takeTestValue d).1 ∧
      (c'.takeTestValue d).2.rest = (c.takeTestValue d).2.rest ++ (commentOpening ++ t) := by
  have hlossless := takeTestValue_append c d
  rw [takeTestValue] at hclosed hlossless ⊢
  rw [takeTestValue]
  cases hd : d.extent? with
  | none => exact ⟨rfl, hc'⟩
  | some extent =>
      rw [hd] at hclosed hlossless
      have hcloses : (Template.testValue extent c.rest).2 = [] → closesTestValue c.rest = true := by
        intro hnil
        have hvalue : (Template.testValue extent c.rest).1 = c.rest := by
          rw [← List.append_nil (Template.testValue extent c.rest).1, ← hnil, testValue_append]
        rw [← hvalue]
        exact hclosed hnil
      have happend := testValue_append_comment t hcloses
      dsimp only [testValue, advance]
      rw [hc', happend]
      exact ⟨rfl, rfl⟩

end Cursor

/-- The second lexeme is the first one at another place. -/
inductive Lexeme.Moved : Lexeme → Lexeme → Prop where
  | text (s : String) : Moved (.text s) (.text s)
  | comment (body : List Char) (start start' : Text.Position) (testValue : List Char) :
      Moved (.comment body start testValue) (.comment body start' testValue)

namespace Cursor.Lexes

variable {c c' : Cursor} {ls : List Lexeme} {fault : Option ErrorKind} {t : List Char}

theorem eq_nil_of_rest_eq_nil (h : c.Lexes ls fault) (hrest : c.rest = []) : ls = [] :=
  (Lexes.unique h (.stop (next_of_rest_eq_nil hrest))).1.symm

/-- A closed text is cut into the same lexemes in front of a comment, which is then left. -/
theorem exists_append (h : c.Lexes ls fault) (hfault : fault = none)
    (hclosed : ∀ l ∈ ls.getLast?, l.IsClosed) (hc' : c'.rest = c.rest ++ (commentOpening ++ t)) :
    ∃ (ls' : List Lexeme) (d : Cursor),
      List.Forall₂ Lexeme.Moved ls ls' ∧ d.rest = commentOpening ++ t ∧
        ∀ ks fault', d.Lexes ks fault' → c'.Lexes (ls' ++ ks) fault' := by
  -- A lexeme with nothing behind it is the last one, and the others leave something to read.
  have hlast {l : Lexeme} {ls : List Lexeme} (h : ∀ k ∈ (l :: ls).getLast?, k.IsClosed) :
      (ls = [] → l.IsClosed) ∧ ∀ k ∈ ls.getLast?, k.IsClosed := by
    cases ls with
    | nil => exact ⟨fun _ => h l rfl, fun k hk => (nomatch hk)⟩
    | cons k ks => exact ⟨fun hnil => (nomatch hnil), h⟩
  induction h generalizing c' with
  | fault => cases hfault
  | stop hnext =>
      rw [rest_eq_nil_of_next_eq_stop hnext, List.nil_append] at hc'
      exact ⟨[], c', .nil, hc', fun ks fault' hks => hks⟩
  | @text _ s _ _ _ hnext hrest ih =>
      obtain ⟨hown, hothers⟩ := hlast hclosed
      have hnext' := next_text_append_comment hnext
        (fun hnil => hown (hrest.eq_nil_of_rest_eq_nil hnil)) hc'
      have hbehind (r : List Char) : (c'.advance s.toList r).rest = r := rfl
      obtain ⟨ls', d, hmoved, hd, hlexes⟩ := ih hfault hothers (hbehind _)
      exact ⟨_ :: ls', d, .cons (.text _) hmoved, hd,
        fun ks fault' hks => .text hnext' (hlexes ks fault' hks)⟩
  | @comment c body c₁ ls fault hnext hrest ih =>
      obtain ⟨hown, hothers⟩ := hlast hclosed
      have hnext' := next_comment_append hnext hc'
      have hadvance (r : List Char) : (c'.advance (commentText body.toList) r).rest = r := rfl
      obtain ⟨htest, hbehind⟩ := takeTestValue_append_comment
        (fun hnil => hown (hrest.eq_nil_of_rest_eq_nil hnil)) (hadvance _)
      obtain ⟨ls', d, hmoved, hd, hlexes⟩ := ih hfault hothers hbehind
      refine ⟨.comment body.toList c'.position _ :: ls', d, .cons (.comment _ _ _ _) hmoved, hd, ?_⟩
      intro ks fault' hks
      rw [← htest]
      exact .comment hnext' (hlexes ks fault' hks)

end Cursor.Lexes

end SqlTemplate.Template
