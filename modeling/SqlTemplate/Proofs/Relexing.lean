import Mathlib
import SqlTemplate.Proofs.CanonicalComments
import SqlTemplate.Proofs.Lexemes
import SqlTemplate.Proofs.PlainText

/-!
# Cutting texts that begin alike

Where a piece of a template ends is seen from two characters behind it at most. So a piece
that was cut off a text is cut off again where another rest stands behind it, if the two
rests begin alike (`BeginsAlike`): a text (`spanText_append_of_beginsAlike`), a test value
(`testValue_append_of_beginsAlike`), and a comment before whatever rest.
-/

namespace SqlTemplate.Template

open Text (quoteMark)

/-- Whether two texts have the same two characters in front, or the same one and no other. -/
def BeginsAlike (r r' : List Char) : Prop :=
  r.take 2 = r'.take 2

namespace BeginsAlike

variable {r r' s : List Char} {c : Char}

theorem append (h : BeginsAlike r r') (t : List Char) : BeginsAlike (t ++ r) (t ++ r') := by
  rw [BeginsAlike] at h ⊢
  cases t with
  | nil => exact h
  | cons c t =>
      have htake := congrArg (List.take 1) h
      cases t with
      | nil => simpa [List.take_take] using htake
      | cons d t => rfl

theorem eq_nil (h : BeginsAlike [] r') : r' = [] := by
  cases r' with
  | nil => rfl
  | cons c s => cases h

theorem exists_cons (h : BeginsAlike (c :: s) r') : ∃ s', r' = c :: s' := by
  cases r' with
  | nil => cases h
  | cons d s' =>
      obtain ⟨rfl, -⟩ := List.cons.inj h
      exact ⟨s', rfl⟩

theorem startsWith_eq (h : BeginsAlike r r') (a b : Char) :
    Text.startsWith [a, b] r = Text.startsWith [a, b] r' := by
  have hlook : ∀ t : List Char, Text.startsWith [a, b] t = decide (t.take 2 = [a, b]) := by
    intro t
    rw [Text.startsWith]
    cases t with
    | nil => simp [Text.dropStart?]
    | cons c t =>
        by_cases hc : a = c
        · cases t with
          | nil => simp [Text.dropStart?, hc]
          | cons d t =>
              by_cases hd : b = d
              · simp [Text.dropStart?, hc, hd]
              · simp [Text.dropStart?, hc, hd, Ne.symm hd]
        · simp [Text.dropStart?, hc, Ne.symm hc]
  rw [hlook, hlook, h]

theorem endsWord_eq (h : BeginsAlike r r') (extent : Extent) :
    endsWord extent r = endsWord extent r' := by
  cases r with
  | nil => rw [h.eq_nil]
  | cons c s =>
      obtain ⟨s', rfl⟩ := h.exists_cons
      rw [endsWord, endsWord, commentOpening, lineCommentMark, h.startsWith_eq, h.startsWith_eq]

end BeginsAlike

/-- A text ends where it ended. -/
theorem spanText_append_of_beginsAlike {mode : TextMode} {s r' : List Char}
    (h : BeginsAlike (spanText mode s).2 r') :
    spanText mode ((spanText mode s).1 ++ r') = ((spanText mode s).1, r') := by
  induction s generalizing mode with
  | nil =>
      rw [spanText] at h
      rw [h.eq_nil]
      rfl
  | cons c s ih =>
      -- One character more, whatever the rest of the text is.
      have step (m m' : TextMode) (hm : ∀ t, BeginsAlike (c :: s) (c :: t) →
            spanText m (c :: t) = (c :: (spanText m' t).1, (spanText m' t).2))
          (h : BeginsAlike (spanText m (c :: s)).2 r') :
          spanText m ((spanText m (c :: s)).1 ++ r') = ((spanText m (c :: s)).1, r') := by
        rw [hm s rfl] at h ⊢
        have hback : (spanText m' s).1 ++ (spanText m' s).2 = s := spanText_append m' s
        have halike : BeginsAlike (c :: s) (c :: ((spanText m' s).1 ++ r')) := by
          have happend := h.append (c :: (spanText m' s).1)
          rwa [List.cons_append, hback] at happend
        rw [List.cons_append, hm _ halike, ih h]
      cases mode with
      | code =>
          by_cases hopen : Text.startsWith commentOpening (c :: s) = true
          · have hspan : ∀ t, BeginsAlike (c :: s) t → spanText .code t = ([], t) := by
              intro t ht
              obtain ⟨t', rfl⟩ := ht.exists_cons
              rw [commentOpening, ht.startsWith_eq, ← commentOpening] at hopen
              rw [spanText, if_pos hopen]
            rw [hspan _ rfl] at h ⊢
            exact hspan r' h
          · by_cases hline : Text.startsWith lineCommentMark (c :: s) = true
            · refine step .code .lineComment ?_ h
              intro t ht
              rw [commentOpening, ht.startsWith_eq, ← commentOpening] at hopen
              rw [lineCommentMark, ht.startsWith_eq, ← lineCommentMark] at hline
              rw [spanText, if_neg hopen, if_pos hline]
            · refine step .code (if c = quoteMark then .literal else .code) ?_ h
              intro t ht
              rw [commentOpening, ht.startsWith_eq, ← commentOpening] at hopen
              rw [lineCommentMark, ht.startsWith_eq, ← lineCommentMark] at hline
              rw [spanText, if_neg hopen, if_neg hline]
      | literal =>
          exact step .literal (if c = quoteMark then .code else .literal) (fun t _ => rfl) h
      | lineComment =>
          exact step .lineComment (if c = '\n' then .code else .lineComment) (fun t _ => rfl) h

theorem spanWord_append_of_beginsAlike {extent : Extent} {s r' : List Char}
    (h : BeginsAlike (spanWord extent s).2 r') :
    spanWord extent ((spanWord extent s).1 ++ r') = ((spanWord extent s).1, r') := by
  induction s with
  | nil =>
      rw [spanWord] at h
      rw [h.eq_nil]
      rfl
  | cons c s ih =>
      by_cases hend : endsWord extent (c :: s) = true
      · have hspan : spanWord extent (c :: s) = ([], c :: s) := by rw [spanWord, if_pos hend]
        rw [hspan] at h ⊢
        obtain ⟨s', rfl⟩ := h.exists_cons
        rw [h.endsWord_eq] at hend
        rw [List.nil_append, spanWord, if_pos hend]
      · have hspan : spanWord extent (c :: s) =
            (c :: (spanWord extent s).1, (spanWord extent s).2) := by
          rw [spanWord, if_neg hend]
        rw [hspan] at h ⊢
        have halike : BeginsAlike (c :: s) (c :: ((spanWord extent s).1 ++ r')) := by
          have happend := BeginsAlike.append h (c :: (spanWord extent s).1)
          rwa [List.cons_append, spanWord_append] at happend
        rw [halike.endsWord_eq] at hend
        rw [List.cons_append, spanWord, if_neg hend, ih h]

theorem literalTail_cons_of_ne {c : Char} (h : c ≠ quoteMark) (s : List Char) :
    Text.literalTail (c :: s) = (c :: (Text.literalTail s).1, (Text.literalTail s).2) := by
  cases s with
  | nil => rfl
  | cons d s => rw [Text.literalTail, if_neg h]

/-- A literal ends where it ended. -/
theorem literalTail_append_of_beginsAlike {s r' : List Char}
    (h : BeginsAlike (Text.literalTail s).2 r') :
    Text.literalTail ((Text.literalTail s).1 ++ r') = ((Text.literalTail s).1, r') := by
  fun_induction Text.literalTail s with
  | case1 =>
      rw [h.eq_nil]
      rfl
  | case2 c =>
      rw [h.eq_nil]
      rfl
  | case3 s inside rest hs ih =>
      rw [hs] at ih
      rw [List.cons_append, List.cons_append, Text.literalTail, if_pos rfl, if_pos rfl, ih h]
  | case4 d s hd =>
      obtain ⟨s', rfl⟩ := h.exists_cons
      rw [List.cons_append, List.nil_append, Text.literalTail, if_pos rfl, if_neg hd]
  | case5 c d s hc inside rest hs ih =>
      rw [hs] at ih
      rw [List.cons_append, literalTail_cons_of_ne hc, ih h]

theorem spanParentheses_append_of_beginsAlike {depth : Nat} {literal : Bool}
    {s r' : List Char} (h : BeginsAlike (spanParentheses depth literal s).2 r') :
    spanParentheses depth literal ((spanParentheses depth literal s).1 ++ r') =
      ((spanParentheses depth literal s).1, r') := by
  induction s generalizing depth literal with
  | nil =>
      rw [spanParentheses] at h
      rw [h.eq_nil]
      rfl
  | cons c s ih => grind [spanParentheses]

/-- A test value ends where it ended. -/
theorem testValue_append_of_beginsAlike {extent : Extent} {s r' : List Char}
    (h : BeginsAlike (testValue extent s).2 r') :
    testValue extent ((testValue extent s).1 ++ r') = ((testValue extent s).1, r') := by
  have hback := (BeginsAlike.append h (testValue extent s).1)
  rw [testValue_append] at hback
  cases s with
  | nil =>
      rw [hback.eq_nil]
      rw [h.eq_nil]
      rfl
  | cons c s =>
      obtain ⟨s', hs'⟩ := hback.exists_cons
      rw [testValue] at h hs' ⊢
      split at h
      next hc =>
        rw [if_pos hc] at hs' ⊢
        rw [List.cons_append, testValue, if_pos hc, literalTail_append_of_beginsAlike h]
      next hc =>
        rw [if_neg hc] at hs' ⊢
        split at h
        next hp =>
          rw [if_pos hp] at hs' ⊢
          rw [hs', testValue, if_neg hc, if_pos hp, ← hs',
            spanParentheses_append_of_beginsAlike h]
        next hp =>
          rw [if_neg hp] at hs' ⊢
          rw [hs', testValue, if_neg hc, if_neg hp, ← hs', spanWord_append_of_beginsAlike h]

/-- The closing mark of a comment is the first one. -/
theorem closing_not_infix_of_comment?_eq_some {s body rest : List Char}
    (h : Cursor.comment? s = some (body, rest)) : ¬ commentClosing <:+: body := by
  rw [Cursor.comment?] at h
  induction s generalizing body with
  | nil => cases h
  | cons c s ih =>
      rw [Text.cutAt?] at h
      split at h
      next =>
        cases h
        decide
      next hdrop =>
        obtain ⟨⟨b, r⟩, hcut, he⟩ := Option.map_eq_some_iff.1 h
        cases he
        rw [closing_infix_cons_iff]
        rintro (⟨rfl, hhead⟩ | hb)
        · -- The mark would have been found one character before.
          have hs := Text.append_of_cutAt?_eq_some hcut
          cases b with
          | nil => cases hhead
          | cons d b =>
              obtain rfl := Option.some.inj hhead
              rw [← hs] at hdrop
              cases hdrop
        · exact ih hcut hb

theorem comment?_append {body : List Char} (h : ¬ commentClosing <:+: body)
    (rest : List Char) : Cursor.comment? (body ++ commentClosing ++ rest) = some (body, rest) := by
  rw [Cursor.comment?]
  induction body with
  | nil => rfl
  | cons c body ih =>
      rw [closing_infix_cons_iff, not_or] at h
      have hdrop :
          Text.dropStart? commentClosing (c :: (body ++ commentClosing ++ rest)) = none := by
        rw [commentClosing, Text.dropStart?]
        split
        next hc =>
          cases body with
          | nil => rfl
          | cons d body =>
              have hd : '/' ≠ d := by
                rintro rfl
                exact h.1 ⟨hc.symm, rfl⟩
              rw [List.cons_append, List.cons_append, Text.dropStart?, if_neg hd]
        next => rfl
      rw [List.cons_append, List.cons_append, Text.cutAt?, hdrop]
      dsimp only
      rw [ih h.2]
      rfl

namespace Cursor

variable {c c₁ : Cursor} {r : List Char}

/-- A text is a token of its own before every rest that begins as the one behind it did. -/
theorem next_of_next_eq_text {s : String} (h : c.next = .ok (.text s, c₁))
    (halike : BeginsAlike c₁.rest r) {c' : Cursor} (hc' : c'.rest = s.toList ++ r) :
    c'.next = .ok (.text s, c'.advance s.toList r) := by
  have hlossless : s.toList ++ c₁.rest = c.rest := source_append_of_next_eq_ok h
  obtain ⟨hdrop, hne, hspan⟩ := spanText_of_next_eq_text h
  have hwhole : BeginsAlike c.rest c'.rest := by
    rw [← hlossless, hc']
    exact halike.append s.toList
  have hdrop' : Text.dropStart? commentOpening c'.rest = none := by
    have hstarts : Text.startsWith commentOpening c.rest = false := by
      rw [Text.startsWith, hdrop]
      rfl
    rw [commentOpening, hwhole.startsWith_eq, ← commentOpening, Text.startsWith] at hstarts
    simpa using hstarts
  have hne' : c'.rest ≠ [] := by
    obtain ⟨d, t, ht⟩ := List.exists_cons_of_ne_nil hne
    rw [ht] at hwhole
    obtain ⟨t', ht'⟩ := hwhole.exists_cons
    rw [ht']
    exact List.cons_ne_nil d t'
  have hspan' : spanText .code c'.rest = (s.toList, r) := by
    have hbehind : BeginsAlike (spanText .code c.rest).2 r := by rwa [hspan]
    have happend := spanText_append_of_beginsAlike hbehind
    rwa [hspan, ← hc'] at happend
  rw [next, hdrop']
  dsimp only
  rw [if_neg hne', hspan', String.ofList_toList]

theorem closing_not_infix_of_next_eq_comment {body : String}
    (h : c.next = .ok (.comment body, c₁)) : ¬ commentClosing <:+: body.toList := by
  rw [next] at h
  split at h
  next =>
    split at h
    next hcomment =>
      cases h
      rw [String.toList_ofList]
      exact closing_not_infix_of_comment?_eq_some hcomment
    next => cases h
  next =>
    split at h
    next => cases h
    next => cases h

/-- A comment is a token of its own before every rest. -/
theorem next_of_closing_not_infix {body : List Char} (h : ¬ commentClosing <:+: body)
    {c' : Cursor} (hc' : c'.rest = commentText body ++ r) :
    c'.next = .ok (.comment (String.ofList body), c'.advance (commentText body) r) := by
  have hdrop : Text.dropStart? commentOpening c'.rest = some (body ++ commentClosing ++ r) := by
    rw [hc', commentText, List.append_assoc, List.append_assoc, Text.dropStart?_append,
      List.append_assoc]
  rw [next, hdrop]
  dsimp only
  rw [comment?_append h]

/-- The test value is cut off again, behind a directive that takes as much. -/
theorem takeTestValue_of_beginsAlike {d d' : Directive}
    (halike : BeginsAlike (c.takeTestValue d).2.rest r) (hextent : d'.extent? = d.extent?)
    {c' : Cursor} (hc' : c'.rest = (c.takeTestValue d).1 ++ r) :
    (c'.takeTestValue d').1 = (c.takeTestValue d).1 ∧ (c'.takeTestValue d').2.rest = r := by
  rw [takeTestValue, hextent]
  rw [takeTestValue] at halike hc' ⊢
  cases hd : d.extent? with
  | none =>
      rw [hd] at hc'
      exact ⟨rfl, hc'⟩
  | some extent =>
      rw [hd] at halike hc'
      have happend : Template.testValue extent ((Template.testValue extent c.rest).1 ++ r) =
          ((Template.testValue extent c.rest).1, r) := testValue_append_of_beginsAlike halike
      have hc' : c'.rest = (Template.testValue extent c.rest).1 ++ r := hc'
      dsimp only [testValue, advance]
      rw [hc', happend]
      exact ⟨rfl, rfl⟩

end Cursor

end SqlTemplate.Template
