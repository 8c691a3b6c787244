import Mathlib
import SqlTemplate.Proofs.PlainSql
import SqlTemplate.Proofs.TemplateDisplay
import SqlTemplate.Proofs.TextEnds

/-!
# What is read behind a text

A text without comments ends in code, in a literal or in a line comment (`TextMode.behind`). The
tokens of a template and the display of SQL find this in ways of their own: the one looks ahead for
the second hyphen of a line comment, the other one looks back for the first. They agree behind every
text (`TextMode.Agrees.behind`). So a comment behind a text is found if and only if a question mark
behind it is taken for a placeholder (`comment_iff_placeholder`), and if it is not found nothing is:
all of the text is one token, and the question mark stays.
-/

namespace SqlTemplate.Template

open Text (Position quoteMark startsWith)

section Modes

variable {mode : TextMode} {m : Reading} {c : Char} {s : List Char}

theorem TextMode.Agrees.next (h : mode.Agrees m (c :: s)) :
    (mode.next c s).Agrees (m.next c) s := by
  cases mode with
  | code =>
      rw [TextMode.next]
      by_cases hline : startsWith lineCommentMark (c :: s) = true
      · obtain ⟨hc, hs⟩ := startsWith_lineCommentMark_cons.1 hline
        rw [if_pos hline]
        exact h.next_lineCommentMark hc hs
      · rw [if_neg hline]
        rw [startsWith_lineCommentMark_cons] at hline
        exact h.next_code hline
  | literal => exact h.next_literal
  | lineComment => exact h.next_lineComment

/-- Two readings that agree in front of a text agree behind it. -/
theorem TextMode.Agrees.behind (h : mode.Agrees m s) : (mode.behind s).Agrees (m.after s) [] := by
  induction s generalizing mode m with
  | nil => exact h
  | cons c s ih => exact ih h.next

theorem TextMode.Agrees.eq_code_iff (h : mode.Agrees m []) :
    mode = .code ↔ m.isCode = true := by
  cases mode <;> cases m <;> simp_all [Agrees, Reading.isCode]

/-- A text ends in code for the display if it does for the tokens. -/
theorem behind_eq_code_iff (s : List Char) :
    TextMode.code.behind s = .code ↔ (Reading.code.after s).isCode = true := by
  have hstart : TextMode.code.Agrees .code s := trivial
  exact hstart.behind.eq_code_iff

/-- A text that goes to the end goes on in front of a comment, in the mode behind it. -/
theorem spanText_append_of_eq_nil (h : (spanText mode s).2 = []) (t : List Char) :
    spanText mode (s ++ (commentOpening ++ t)) =
      (s ++ (spanText (mode.behind s) (commentOpening ++ t)).1,
        (spanText (mode.behind s) (commentOpening ++ t)).2) := by
  induction s generalizing mode with
  | nil => rfl
  | cons c s ih =>
      rw [spanText_cons] at h
      rw [List.cons_append, spanText_cons, TextMode.next_append_comment,
        startsWith_commentOpening_append_comment]
      split at h
      next => simp at h
      next hcut =>
        rw [if_neg hcut, ih h]
        rfl

/-- What is open stays open where nothing may close it. -/
theorem spanText_of_not_mem (hmode : mode ≠ .code) (hquote : quoteMark ∉ s) (hline : '\n' ∉ s) :
    spanText mode s = (s, []) := by
  induction s generalizing mode with
  | nil => rfl
  | cons c s ih =>
      rw [List.mem_cons, not_or] at hquote hline
      have hnext : mode.next c s = mode := by
        cases mode with
        | code => exact absurd rfl hmode
        | literal => simp [TextMode.next, Ne.symm hquote.1]
        | lineComment => simp [TextMode.next, Ne.symm hline.1]
      have hcut : ¬ (mode = .code ∧ startsWith commentOpening (c :: s) = true) :=
        fun hcut => hmode hcut.1
      rw [spanText_cons, if_neg hcut, hnext, ih hmode hquote.2 hline.2]

/-- What is left behind a text in code begins with a comment. -/
theorem startsWith_commentOpening_spanText (h : (spanText mode s).2 ≠ []) :
    startsWith commentOpening (spanText mode s).2 = true := by
  induction s generalizing mode with
  | nil => exact absurd rfl h
  | cons c s ih =>
      rw [spanText_cons] at h ⊢
      split at h
      next hcut => rw [if_pos hcut]; exact hcut.2
      next hcut => rw [if_neg hcut]; exact ih h

end Modes

namespace Cursor

variable {c c' : Cursor} {tokens : List Located}

/-- All tokens are the first one and all tokens behind it. -/
theorem all_of_next {t : Token} (hnext : c.next = .ok (t, c')) (ht : t ≠ .stop) :
    c.all.1 = c'.all.1.map (⟨t, c.position, c'.position⟩ :: ·) := by
  rw [all]
  split
  next hfault => cases hnext.symm.trans hfault
  next hfirst =>
    cases hnext.symm.trans hfirst
    rw [dif_neg ht]

theorem all_of_rest_eq_nil (h : c.rest = []) :
    c.all.1 = .ok [⟨.stop, c.position, c.position⟩] := by
  have hnext := next_of_rest_eq_nil h
  rw [all]
  split
  next hfault => cases hnext.symm.trans hfault
  next hfirst =>
    cases hnext.symm.trans hfirst
    rw [dif_pos rfl]

theorem next_of_spanText {s r : List Char} (hs : spanText .code c.rest = (s, r)) (hne : s ≠ []) :
    c.next = .ok (.text (String.ofList s), c.advance s r) := by
  have hdrop : Text.dropStart? commentOpening c.rest = none := by
    cases hrest : c.rest with
    | nil => rfl
    | cons d u =>
        rw [hrest, spanText_cons] at hs
        split at hs
        next => exact absurd (congrArg Prod.fst hs).symm hne
        next hcut => simpa [startsWith] using hcut
  have hrest : c.rest ≠ [] := by
    intro hrest
    rw [hrest] at hs
    exact hne (congrArg Prod.fst hs).symm
  rw [next, hdrop]
  dsimp only
  rw [if_neg hrest, hs]

/-- A text that is not empty and goes to the end is one token. -/
theorem all_of_spanText {s : List Char} (hs : spanText .code c.rest = (s, [])) (hne : s ≠ []) :
    c.all.1 = .ok [⟨.text (String.ofList s), c.position, c.position.after s⟩,
      ⟨.stop, c.position.after s, c.position.after s⟩] := by
  rw [all_of_next (next_of_spanText hs hne) (by simp), all_of_rest_eq_nil rfl]
  rfl

/-- A comment at the end of a text is one token. -/
theorem all_of_commentText {body : List Char} (h : ¬ commentClosing <:+: body)
    (hrest : c.rest = commentText body) :
    c.all.1 = .ok [⟨.comment (String.ofList body), c.position,
        c.position.after (commentText body)⟩,
      ⟨.stop, c.position.after (commentText body), c.position.after (commentText body)⟩] := by
  have hnext := next_of_closing_not_infix (r := []) h (hrest.trans (List.append_nil _).symm)
  rw [all_of_next hnext (by simp), all_of_rest_eq_nil rfl]
  rfl

theorem exists_comment_of_all {last : Cursor} (hscan : c.all = (.ok tokens, last))
    (hopen : startsWith commentOpening c.rest = true) :
    ∃ t ∈ tokens, ∃ body, t.token = .comment body := by
  cases hnext : c.next with
  | error kind =>
      rw [all] at hscan
      split at hscan
      next => cases hscan
      next hfirst => cases hnext.symm.trans hfirst
  | ok r =>
      obtain ⟨t, c'⟩ := r
      cases t with
      | stop =>
          rw [rest_eq_nil_of_next_eq_stop hnext] at hopen
          cases hopen
      | text s =>
          rw [startsWith, (spanText_of_next_eq_text hnext).1] at hopen
          cases hopen
      | comment body =>
          obtain ⟨rest, -, rfl⟩ := exists_all_of_next hscan hnext (by simp)
          exact ⟨_, List.mem_cons_self, body, rfl⟩

/-- Where a scan comes to the end and finds no comment, the text goes to the end. -/
theorem spanText_of_all {last : Cursor} (hscan : c.all = (.ok tokens, last))
    (htext : ∀ t ∈ tokens, ∀ body, t.token ≠ .comment body) :
    (spanText .code c.rest).2 = [] := by
  by_contra hrest
  have hopen := startsWith_commentOpening_spanText hrest
  by_cases hempty : (spanText .code c.rest).1 = []
  · have happend := spanText_append .code c.rest
    rw [hempty, List.nil_append] at happend
    rw [happend] at hopen
    obtain ⟨t, ht, body, hbody⟩ := exists_comment_of_all hscan hopen
    exact htext t ht body hbody
  · obtain ⟨tail, htail, rfl⟩ :=
      exists_all_of_next hscan (next_of_spanText rfl hempty) (by simp)
    obtain ⟨t, ht, body, hbody⟩ := exists_comment_of_all htail hopen
    exact htext t (List.mem_cons_of_mem _ ht) body hbody

end Cursor

section Behind

variable {a body : String}

/-- The text with the comment behind it. -/
def withComment (a body : String) : String :=
  String.ofList (a.toList ++ commentText body.toList)

theorem rest_ofText_withComment :
    (Cursor.ofText (withComment a body)).rest = a.toList ++ commentText body.toList :=
  String.toList_ofList

/-- Reading all tokens of a template ends with the comment, which starts at the place. -/
def EndsInComment (source body : String) (start : Position) : Prop :=
  ∃ before stop, (Cursor.ofText source).all.1 =
    .ok (before ++ [⟨.comment body, start, stop⟩, ⟨.stop, stop, stop⟩])

/-- A template that is one text does not end with a comment. -/
theorem not_endsInComment_of_text {source text : String} {place start stop : Position}
    (h : (Cursor.ofText source).all.1 = .ok [⟨.text text, place, stop⟩, ⟨.stop, stop, stop⟩]) :
    ¬ EndsInComment source body start := by
  rintro ⟨before, stop', hcomment⟩
  have hlists : [⟨.text text, place, stop⟩, ⟨.stop, stop, stop⟩] =
      before ++ [(⟨.comment body, start, stop'⟩ : Located), ⟨.stop, stop', stop'⟩] :=
    Except.ok.inj (h.symm.trans hcomment)
  have hinit := congrArg (fun l => l.dropLast.getLast?) hlists
  simp at hinit

theorem spanText_withComment (hspan : (spanText .code a.toList).2 = []) :
    spanText .code (a.toList ++ commentText body.toList) =
      (a.toList ++ (spanText (TextMode.code.behind a.toList) (commentText body.toList)).1,
        (spanText (TextMode.code.behind a.toList) (commentText body.toList)).2) := by
  rw [commentText, List.append_assoc]
  exact spanText_append_of_eq_nil hspan _

/-- A comment is found behind a text that ends in code. -/
theorem endsInComment_of_behind (hspan : (spanText .code a.toList).2 = [])
    (hcode : TextMode.code.behind a.toList = .code)
    (hclosing : ¬ commentClosing <:+: body.toList) :
    EndsInComment (withComment a body) body (Position.start.after a.toList) := by
  have hcut : spanText .code (Cursor.ofText (withComment a body)).rest =
      (a.toList, commentText body.toList) := by
    rw [rest_ofText_withComment, spanText_withComment hspan, hcode, commentText]
    simp [spanText, commentOpening, startsWith, Text.dropStart?]
  by_cases ha : a.toList = []
  · have hrest : (Cursor.ofText (withComment a body)).rest = commentText body.toList := by
      rw [rest_ofText_withComment, ha, List.nil_append]
    have hall := Cursor.all_of_commentText hclosing hrest
    rw [String.ofList_toList] at hall
    rw [ha]
    exact ⟨[], _, hall⟩
  · have hall := Cursor.all_of_next (Cursor.next_of_spanText hcut ha) (by simp)
    have hrest (c : Cursor) (t r : List Char) : (c.advance t r).rest = r := rfl
    rw [Cursor.all_of_commentText hclosing (hrest _ _ _)] at hall
    simp only [String.ofList_toList] at hall
    exact ⟨[_], _, hall⟩

/-- Behind a text that does not end in code, a comment is part of the text. -/
theorem all_withComment_of_behind (hspan : (spanText .code a.toList).2 = [])
    (hcode : TextMode.code.behind a.toList ≠ .code) (hquote : quoteMark ∉ body.toList)
    (hline : '\n' ∉ body.toList) :
    ∃ stop, (Cursor.ofText (withComment a body)).all.1 =
      .ok [⟨.text (withComment a body), .start, stop⟩, ⟨.stop, stop, stop⟩] := by
  have hcut : spanText .code (Cursor.ofText (withComment a body)).rest =
      (a.toList ++ commentText body.toList, []) := by
    have hquote' : quoteMark ∉ commentText body.toList := by
      simp [commentText, commentOpening, commentClosing, quoteMark, hquote]
    have hline' : '\n' ∉ commentText body.toList := by
      simp [commentText, commentOpening, commentClosing, hline]
    rw [rest_ofText_withComment, spanText_withComment hspan,
      spanText_of_not_mem hcode hquote' hline']
  have hne : a.toList ++ commentText body.toList ≠ [] := by
    simp [commentText, commentOpening]
  exact ⟨_, Cursor.all_of_spanText hcut hne⟩

/-- Behind a text without question marks a placeholder is replaced if the text ends in code. -/
theorem display_placeholder (h : '?' ∉ a.toList) (v : Value) (types : List ValueType) :
    (BoundSql.mk (a ++ BoundSql.placeholder) [v] types).display =
      a ++ if (Reading.code.after a.toList).isCode then v.literal else BoundSql.placeholder := by
  apply String.toList_inj.1
  rw [BoundSql.display_eq_write, String.toList_append, String.toList_append,
    Reading.write_append (Reading.marksRead_of_not_mem h .code), String.toList_ofList]
  by_cases hcode : (Reading.code.after a.toList).isCode = true
  · simp [Reading.write, BoundSql.placeholder, hcode]
  · simp [Reading.write, BoundSql.placeholder, hcode]

/-- Behind a text that has no comment, one is found if and only if a placeholder there is replaced
by its value. If not, all is one text, and the placeholder stays. -/
theorem comment_iff_placeholder {tokens : List Located} {last : Cursor}
    (hscan : (Cursor.ofText a).all = (.ok tokens, last))
    (htext : ∀ t ∈ tokens, ∀ body, t.token ≠ .comment body) (hmark : '?' ∉ a.toList)
    (hclosing : ¬ commentClosing <:+: body.toList) (hquote : quoteMark ∉ body.toList)
    (hline : '\n' ∉ body.toList) (v : Value) (types : List ValueType) :
    let whole := withComment a body
    let start := Position.start.after a.toList
    let shown := (BoundSql.mk (a ++ BoundSql.placeholder) [v] types).display
    (EndsInComment whole body start ↔ shown = a ++ v.literal) ∧
    (¬ EndsInComment whole body start →
      (∃ stop, (Cursor.ofText whole).all.1 =
        .ok [⟨.text whole, .start, stop⟩, ⟨.stop, stop, stop⟩]) ∧
      shown = a ++ BoundSql.placeholder) := by
  intro whole start shown
  have hspan : (spanText .code a.toList).2 = [] := Cursor.spanText_of_all hscan htext
  have hshown : shown = _ := display_placeholder hmark v types
  by_cases hcode : TextMode.code.behind a.toList = .code
  · have hends : EndsInComment whole body start := endsInComment_of_behind hspan hcode hclosing
    rw [if_pos ((behind_eq_code_iff _).1 hcode)] at hshown
    exact ⟨⟨fun _ => hshown, fun _ => hends⟩, fun hnot => absurd hends hnot⟩
  · obtain ⟨stop, hall⟩ := all_withComment_of_behind hspan hcode hquote hline
    have hends : ¬ EndsInComment whole body start := not_endsInComment_of_text hall
    rw [if_neg (mt (behind_eq_code_iff _).2 hcode)] at hshown
    have hvalue : shown ≠ a ++ v.literal := by
      rw [hshown, ne_eq, String.append_right_inj]
      exact v.literal_ne_placeholder.symm
    exact ⟨⟨fun h => absurd h hends, fun h => absurd h hvalue⟩, fun _ => ⟨⟨stop, hall⟩, hshown⟩⟩

/-- A quote mark in a line comment and a single hyphen open nothing. -/
theorem comment_iff_placeholder_hyphens :
    let a := "-- don't\n'it''s --' -"
    let tokens : List Located :=
      [⟨.text a, .start, ⟨21, 2, 13⟩⟩, ⟨.stop, ⟨21, 2, 13⟩, ⟨21, 2, 13⟩⟩]
    (Cursor.ofText a).all = (.ok tokens, ⟨[], ⟨21, 2, 13⟩⟩) ∧
      (∀ t ∈ tokens, ∀ body, t.token ≠ .comment body) ∧ '?' ∉ a.toList ∧
      ¬ commentClosing <:+: "x".toList ∧ quoteMark ∉ "x".toList ∧ '\n' ∉ "x".toList ∧
      (BoundSql.mk (a ++ BoundSql.placeholder) [.bool true] [.boolean]).display = a ++ "true" ∧
      EndsInComment (withComment a "x") "x" ⟨21, 2, 13⟩ := by
  intro a tokens
  have hscan : (Cursor.ofText a).all = (.ok tokens, ⟨[], ⟨21, 2, 13⟩⟩) := by cbv
  have htext : ∀ t ∈ tokens, ∀ body, t.token ≠ .comment body := by simp [tokens]
  have hmark : '?' ∉ a.toList := by decide
  have hclosing : ¬ commentClosing <:+: "x".toList := by decide
  have hquote : quoteMark ∉ "x".toList := by decide
  have hline : '\n' ∉ "x".toList := by decide
  have hshown : (BoundSql.mk (a ++ BoundSql.placeholder) [.bool true] [.boolean]).display =
      a ++ "true" := by decide
  have hstart : Position.start.after a.toList = ⟨21, 2, 13⟩ := by decide
  have hiff := (comment_iff_placeholder hscan htext hmark hclosing hquote hline (.bool true)
    [.boolean]).1
  rw [hstart] at hiff
  exact ⟨hscan, htext, hmark, hclosing, hquote, hline, hshown, hiff.2 hshown⟩

end Behind

end SqlTemplate.Template
